import DeclBundle.CommandLine
import DeclBundle.Proofs.FileSystem.Snapshots
import DeclBundle.Proofs.Pass.Course

/-!
What a check says of a pass before it. The check and the compiler list the sources each on its own,
and directories may list their names in another order each time; still the check tells whether the
program will be started, and what it will be started with.
-/

namespace DeclBundle

open FileSystem

variable {settings : CompilerSettings} {fs : FileSystem} {s s' : Schedule} {inDir outDir : Location}
  {sources : List Path} {program : String} {args : List String} {e : PassError}

namespace CompilerSettings

/-- Compiling comes to starting a program with some arguments, and to whatever that ends with. -/
def Launches (settings : CompilerSettings) (s : Schedule) (inDir outDir : Location) (fs : FileSystem)
    (program : String) (args : List String) : Prop :=
  ∀ launch : Launcher, settings.compiler launch s inDir outDir fs =
    match launch program args fs with
    | (fs, .error e) => (fs, .error (.spawn program e))
    | (fs, .ok exit) => (fs, exit.text)

def Refuses (settings : CompilerSettings) (s : Schedule) (inDir outDir : Location) (fs : FileSystem)
    (e : PassError) : Prop :=
  ∀ launch : Launcher, settings.compiler launch s inDir outDir fs = (fs, .error e)

theorem launches_of_sources (h : fs.sources s inDir.path = .ok sources) (hne : sources ≠ []) :
    settings.Launches s inDir outDir fs settings.program (settings.arguments outDir.path sources) := by
  intro launch
  rw [compiler, h]
  cases sources with
  | nil => exact absurd rfl hne
  | cons p rest => rfl

theorem refuses_of_no_sources (h : fs.sources s inDir.path = .ok []) :
    settings.Refuses s inDir outDir fs (.noSources inDir.path) := by
  intro launch
  rw [compiler, h]

theorem refuses_of_error {err : IoError} (h : fs.sources s inDir.path = .error err) :
    settings.Refuses s inDir outDir fs (.list inDir.path err) := by
  intro launch
  rw [compiler, h]

def knowing (program : String) (args : List String) : Launcher := fun program' args' fs =>
  if program' = program ∧ args' = args then (fs, .ok ⟨.exited 0, .empty, .empty⟩) else (fs, .error .invalidUtf8)

theorem Launches.compiler_knowing (h : settings.Launches s inDir outDir fs program args) :
    settings.compiler (knowing program args) s inDir outDir fs = (fs, .ok "") := by
  rw [h (knowing program args)]
  simp only [knowing, and_self, ↓reduceIte]
  rfl

theorem Launches.unique {program' : String} {args' : List String} (h : settings.Launches s inDir outDir fs program args)
    (h' : settings.Launches s inDir outDir fs program' args') : program' = program ∧ args' = args := by
  have hsame := (h' _).symm.trans h.compiler_knowing
  by_cases hc : program' = program ∧ args' = args
  · exact hc
  · simp [knowing, hc] at hsame

theorem Refuses.not_launches (h : settings.Refuses s inDir outDir fs e) :
    ¬settings.Launches s inDir outDir fs program args := by
  intro h'
  have hsame := (h _).symm.trans h'.compiler_knowing
  simp at hsame

end CompilerSettings

namespace CheckReport

theorem isDirectory_of_sources (h : fs.sources s inDir.path = .ok sources) (hne : sources ≠ []) :
    fs.isDirectory inDir.path = true := by
  obtain ⟨l, entry, hf, -, -, hmem⟩ := sources_eq_ok_iff.1 h
  obtain ⟨q, hq⟩ := List.exists_mem_of_ne_nil sources hne
  obtain ⟨-, content, mode, rel, hshown, -⟩ := (hmem q).1 hq
  have hd := (isDirectoryAt_of_find hf).symm.trans (isDirectoryAt_of_append hshown.there hshown.below)
  obtain ⟨mode', rfl⟩ := Entry.isDirectory_iff.1 hd
  rw [isDirectory, hf]

theorem countSources_of_sources (h : fs.sources s inDir.path = .ok sources) (hne : sources ≠ []) :
    countSources fs s inDir.path = (some sources.length, []) := by
  rw [countSources, isDirectory_of_sources h hne, h]
  cases sources with
  | nil => exact absurd rfl hne
  | cons p rest => rfl

theorem countSources_of_empty (h : fs.sources s inDir.path = .ok []) :
    ∃ count warning, countSources fs s inDir.path = (count, [warning]) := by
  rw [countSources, h]
  cases fs.isDirectory inDir.path with
  | false => exact ⟨none, _, rfl⟩
  | true => exact ⟨some 0, _, rfl⟩

theorem countSources_of_error {err : IoError} (h : fs.sources s inDir.path = .error err) :
    ∃ warning, countSources fs s inDir.path = (none, [warning]) := by
  rw [countSources, h]
  cases fs.isDirectory inDir.path with
  | false => exact ⟨_, rfl⟩
  | true => exact ⟨_, rfl⟩

theorem sources_congr (s s' : Schedule) :
    fs.sources s inDir.path = .ok sources ↔ fs.sources s' inDir.path = .ok sources := by
  rw [sources_eq_ok_iff, sources_eq_ok_iff]

theorem exists_refuses (h : ∀ sources, fs.sources s' inDir.path = .ok sources → sources = []) :
    ∃ e count warning, settings.Refuses s' inDir outDir fs e ∧
      countSources fs s inDir.path = (count, [warning]) ∧
      (e = .noSources inDir.path ∨ ∃ err, e = .list inDir.path err) ∧
      (count = some 0 → e = .noSources inDir.path) := by
  cases hs' : fs.sources s' inDir.path with
  | ok sources =>
    obtain rfl := h sources hs'
    obtain ⟨count, warning, hcount⟩ := countSources_of_empty ((sources_congr s s').2 hs')
    exact ⟨_, count, warning, CompilerSettings.refuses_of_no_sources hs', hcount, .inl rfl, fun _ => rfl⟩
  | error err =>
    cases hs : fs.sources s inDir.path with
    | ok sources =>
      rw [(sources_congr s s').1 hs] at hs'
      cases hs'
    | error err' =>
      obtain ⟨warning, hcount⟩ := countSources_of_error hs
      exact ⟨_, none, warning, CompilerSettings.refuses_of_error hs', hcount, .inr ⟨err, rfl⟩, by simp⟩

/-- A check that counts sources and warns of nothing tells what the compiler is started with. Any
other warns once, and nothing is started. -/
theorem check_forecast (loaded : Loaded) (fs : FileSystem) (s s' : Schedule) :
    let c := loaded.config
    let report := CheckReport.ofLoaded fs s loaded
    ((∃ n, 1 ≤ n ∧ report.sourceCount = some n) ∧ report.warnings = [] ↔
      ∃ program args, c.compiler.Launches s' c.inDir c.outDir fs program args) ∧
    (∀ program args, c.compiler.Launches s' c.inDir c.outDir fs program args →
      program = c.compiler.program ∧ ∃ sources, fs.sources s' c.inDir.path = .ok sources ∧
        report.sourceCount = some sources.length ∧ (sources.Pairwise fun p q => compare p q = .lt) ∧
        args = c.compiler.arguments c.outDir.path sources ∧
        ∃ leading, args = leading ++ sources.map Path.text ∧
          report.command = " ".intercalate (program :: leading ++ [c.inDir.path.text ++ "/**/*.ts"])) ∧
    ((¬∃ program args, c.compiler.Launches s' c.inDir c.outDir fs program args) →
      (∃ warning, report.warnings = [warning]) ∧
      ∃ e, c.compiler.Refuses s' c.inDir c.outDir fs e ∧
        (e = .noSources c.inDir.path ∨ ∃ err, e = .list c.inDir.path err) ∧
        (report.sourceCount = some 0 → e = .noSources c.inDir.path)) := by
  intro c report
  have hcounted : (report.sourceCount, report.warnings) = countSources fs s c.inDir.path := rfl
  by_cases h : ∃ sources, fs.sources s' c.inDir.path = .ok sources ∧ sources ≠ []
  · obtain ⟨sources, hs', hne⟩ := h
    have hlaunches : c.compiler.Launches s' c.inDir c.outDir fs c.compiler.program
        (c.compiler.arguments c.outDir.path sources) := CompilerSettings.launches_of_sources hs' hne
    rw [countSources_of_sources ((sources_congr s s').2 hs') hne, Prod.mk.injEq] at hcounted
    obtain ⟨hcount, hwarnings⟩ := hcounted
    refine ⟨?_, ?_, ?_⟩
    · refine ⟨fun _ => ⟨_, _, hlaunches⟩, fun _ => ⟨⟨sources.length, ?_, hcount⟩, hwarnings⟩⟩
      exact List.length_pos_iff.2 hne
    · intro program args h
      obtain ⟨rfl, rfl⟩ := hlaunches.unique h
      obtain ⟨_, _, -, -, hpairwise, -⟩ := sources_eq_ok_iff.1 hs'
      exact ⟨rfl, sources, hs', hcount, hpairwise, rfl, c.compiler.leading c.outDir.path, rfl, rfl⟩
    · intro hnone
      exact absurd ⟨_, _, hlaunches⟩ hnone
  · have hempty (sources : List Path) (hs' : fs.sources s' c.inDir.path = .ok sources) : sources = [] :=
      Classical.not_not.1 fun hne => h ⟨sources, hs', hne⟩
    obtain ⟨e, count, warning, hrefuses, hcount, hkind, hzero⟩ :
        ∃ e count warning, c.compiler.Refuses s' c.inDir c.outDir fs e ∧
          countSources fs s c.inDir.path = (count, [warning]) ∧ _ := exists_refuses hempty
    rw [hcount, Prod.mk.injEq] at hcounted
    obtain ⟨hcount, hwarnings⟩ := hcounted
    refine ⟨?_, ?_, ?_⟩
    · constructor
      · rintro ⟨-, hnone⟩
        rw [hwarnings] at hnone
        cases hnone
      · rintro ⟨program, args, hlaunches⟩
        exact absurd hlaunches hrefuses.not_launches
    · intro program args hlaunches
      exact absurd hlaunches hrefuses.not_launches
    · intro _
      exact ⟨⟨warning, hwarnings⟩, e, hrefuses, hkind, by rwa [hcount]⟩

namespace Sample

open Pipeline.Sample

def index : Name := ⟨"index.ts", by decide⟩

def loaded : Loaded :=
  ⟨none, config⟩

def tree : FileSystem :=
  let fs := (FileSystem.empty.put [src] (.directory 0o755)).put [src, lib] (.directory 0o755)
  (fs.put [src, lib, index] (.file .empty 0o644)).put [src, index] (.file .empty 0o644)

end Sample

theorem check_forecast_sample :
    (Sample.loaded.config.compiler.Launches .reversed Sample.loaded.config.inDir Sample.loaded.config.outDir
        Sample.tree "tsc"
        (CompilerSettings.flags ++ ["--outDir", "/out", "/src/index.ts", "/src/lib/index.ts"]) ∧
      (ofLoaded Sample.tree .inOrder Sample.loaded).sourceCount = some 2) ∧
    ∃ e, Sample.loaded.config.compiler.Refuses .reversed Sample.loaded.config.inDir
      Sample.loaded.config.outDir .empty e := by
  constructor
  · obtain ⟨hiff, hstarts, -⟩ := check_forecast Sample.loaded Sample.tree .inOrder .reversed
    have hcount : (ofLoaded Sample.tree .inOrder Sample.loaded).sourceCount = some 2 := by decide +kernel
    have hwarnings : (ofLoaded Sample.tree .inOrder Sample.loaded).warnings = [] := by decide +kernel
    have hlisted : Sample.tree.sources .reversed Sample.loaded.config.inDir.path =
        .ok [⟨"/src/index.ts"⟩, ⟨"/src/lib/index.ts"⟩] := Results.eq_ok_of_toOption (by decide +kernel)
    obtain ⟨program, args, h⟩ := hiff.1 ⟨⟨2, by decide, hcount⟩, hwarnings⟩
    obtain ⟨rfl, sources, hsources, -, -, rfl, -⟩ := hstarts program args h
    cases hsources.symm.trans hlisted
    exact ⟨h, hcount⟩
  · obtain ⟨hiff, -, hrefuses⟩ := check_forecast Sample.loaded .empty .inOrder .reversed
    have hcount : (ofLoaded .empty .inOrder Sample.loaded).sourceCount = none := by decide +kernel
    have hnot : ¬∃ program args, Sample.loaded.config.compiler.Launches .reversed Sample.loaded.config.inDir
        Sample.loaded.config.outDir .empty program args := by
      intro h
      obtain ⟨⟨n, -, hn⟩, -⟩ := hiff.2 h
      rw [hcount] at hn
      cases hn
    obtain ⟨e, h, -⟩ := (hrefuses hnot).2
    exact ⟨e, h⟩

end CheckReport

end DeclBundle
