import DeclBundle.Manifest.File
import DeclBundle.Proofs.Config.Acceptance

/-!
Configurations made of a file and a command line. A file that was accepted holds no value that a pass
cannot use, so what can still be wrong is what nobody has given and an output directory that would take
the sources along. What the command line gives hides what the file says, and the directories of a file are
found from the place of the file, however the file is named.
-/

namespace DeclBundle

open Results

variable {cwd : Location} {base base' : Path} {o : Overrides} {m m' : Manifest} {e : ConfigError} {setting : Setting}
  {given written written' : Option Path}

structure Overrides.Usable (o : Overrides) : Prop where
  inDir : o.inDir ≠ some ⟨""⟩
  outDir : o.outDir ≠ some ⟨""⟩
  outFileName : ∀ name, o.outFileName = some name → BundleName.fault? name = none
  program : ∀ program, o.program = some program → Text.allBlank program = false

namespace Manifest

structure Usable (m : Manifest) : Prop where
  inDir : m.inDir ≠ some ⟨""⟩
  outDir : m.outDir ≠ some ⟨""⟩
  outFileName : ∀ name, m.outFileName = some name → BundleName.fault? name = none
  program : Text.allBlank m.compiler.program = false

theorem usable_of_unusable? (h : m.unusable? = none) : m.Usable := by
  unfold unusable? at h
  split at h
  · cases h
  next hname =>
    split at h
    · cases h
    next hin =>
      split at h
      · cases h
      next hout =>
        split at h
        · cases h
        next hprogram =>
          refine ⟨hin, hout, ?_, by simpa using hprogram⟩
          intro name hgiven
          simpa [hgiven] using hname

theorem usable_of_parse {file text : String} (h : parse file text = .ok m) : m.Usable := by
  unfold parse at h
  split at h
  · cases h
  · split at h
    · cases h
    · split at h
      · cases h
      next hnone =>
        cases h
        exact usable_of_unusable? hnone

theorem exists_directory_iff (setting : Setting) (base : Path) (given written : Option Path) :
    (∃ p, directory setting base given written = .ok p) ↔ given ≠ none ∨ written ≠ none := by
  cases given with
  | some path => simp [directory]
  | none => cases written <;> simp [directory]

theorem directory_eq_ok_iff {p : Path} : directory setting base given written = .ok p ↔
    given = some p ∨ given = none ∧ ∃ q, written = some q ∧ base.join q = p := by
  cases given with
  | some path => simp [directory]
  | none => cases written <;> simp [directory]

theorem text_ne_empty_of_directory {p : Path} (h : directory setting base given written = .ok p)
    (hgiven : given ≠ some ⟨""⟩) (hwritten : written ≠ some ⟨""⟩) : p.text ≠ "" := by
  intro hempty
  obtain rfl : p = ⟨""⟩ := congrArg Path.mk hempty
  rcases directory_eq_ok_iff.1 h with hp | ⟨-, q, hq, hjoin⟩
  · exact hgiven hp
  · have htext : (base.join q).text = "" := by rw [hjoin]
    apply hwritten
    rw [hq, show q = ⟨""⟩ from congrArg Path.mk (Path.text_join_eq_empty_iff.1 htext).2]

def settings (m : Manifest) (o : Overrides) : CompilerSettings :=
  match o.program with
  | some program => ⟨program, []⟩
  | none => m.compiler

def policy (m : Manifest) (o : Overrides) : CleanPolicy :=
  (o.clean <|> m.clean).getD .outDir

theorem configure_eq (m : Manifest) (cwd : Location) (base : Path) (o : Overrides) : m.configure cwd base o = (do
    let inDir ← directory .inDir base o.inDir m.inDir
    let outDir ← directory .outDir base o.outDir m.outDir
    Config.new cwd ⟨inDir, outDir, o.outFileName <|> m.outFileName⟩ (m.policy o) (m.settings o)) := by
  rfl

inductive Lacks (m : Manifest) (o : Overrides) : Setting → Prop
  | inDir (hgiven : o.inDir = none) (hwritten : m.inDir = none) : Lacks m o .inDir
  | outDir (hin : o.inDir ≠ none ∨ m.inDir ≠ none) (hgiven : o.outDir = none) (hwritten : m.outDir = none) :
    Lacks m o .outDir

theorem lacks_inDir_iff : m.Lacks o .inDir ↔ o.inDir = none ∧ m.inDir = none := by
  constructor
  · rintro ⟨hgiven, hwritten⟩
    exact ⟨hgiven, hwritten⟩
  · rintro ⟨hgiven, hwritten⟩
    exact .inDir hgiven hwritten

theorem exists_lacks_iff :
    (∃ setting, m.Lacks o setting) ↔ o.inDir = none ∧ m.inDir = none ∨ o.outDir = none ∧ m.outDir = none := by
  constructor
  · rintro ⟨setting, h⟩
    cases h with
    | inDir hgiven hwritten => exact .inl ⟨hgiven, hwritten⟩
    | outDir _ hgiven hwritten => exact .inr ⟨hgiven, hwritten⟩
  · by_cases hin : o.inDir = none ∧ m.inDir = none
    · intro
      exact ⟨_, .inDir hin.1 hin.2⟩
    · rintro (h | ⟨hgiven, hwritten⟩)
      · exact absurd h hin
      · exact ⟨_, .outDir (Classical.not_and_iff_not_or_not.1 hin) hgiven hwritten⟩

theorem configure_of_lacks (h : m.Lacks o setting) (cwd : Location) (base : Path) :
    m.configure cwd base o = .error (.missing setting) := by
  rw [configure_eq]
  cases h with
  | inDir hgiven hwritten => rw [hgiven, hwritten, directory, error_bind]
  | outDir hin hgiven hwritten =>
    obtain ⟨p, hp⟩ := (exists_directory_iff .inDir base _ _).2 hin
    rw [hp, hgiven, hwritten, ok_bind, directory, error_bind]

theorem configure_of_not_lacks (h : ¬∃ setting, m.Lacks o setting) (cwd : Location) (base : Path) :
    ∃ inDir outDir, directory .inDir base o.inDir m.inDir = .ok inDir ∧
      directory .outDir base o.outDir m.outDir = .ok outDir ∧ m.configure cwd base o =
        Config.new cwd ⟨inDir, outDir, o.outFileName <|> m.outFileName⟩ (m.policy o) (m.settings o) := by
  rw [exists_lacks_iff, not_or] at h
  obtain ⟨inDir, hin⟩ := (exists_directory_iff .inDir base _ _).2 (Classical.not_and_iff_not_or_not.1 h.1)
  obtain ⟨outDir, hout⟩ := (exists_directory_iff .outDir base _ _).2 (Classical.not_and_iff_not_or_not.1 h.2)
  refine ⟨inDir, outDir, hin, hout, ?_⟩
  rw [configure_eq, hin, hout, ok_bind, ok_bind]

theorem configure_eq_missing_iff : m.configure cwd base o = .error (.missing setting) ↔ m.Lacks o setting := by
  refine ⟨fun h => ?_, fun h => configure_of_lacks h cwd base⟩
  by_cases hlacks : ∃ other, m.Lacks o other
  · obtain ⟨other, hother⟩ := hlacks
    rw [configure_of_lacks hother] at h
    cases h
    exact hother
  · obtain ⟨inDir, outDir, -, -, hnew⟩ := configure_of_not_lacks hlacks cwd base
    cases Config.new_eq_error_iff.1 (hnew.symm.trans h)

theorem allBlank_settings (hm : m.Usable) (ho : o.Usable) : Text.allBlank (m.settings o).program = false := by
  rw [settings]
  split
  next program h => exact ho.program program h
  next => exact hm.program

theorem fault?_outFileName (hm : m.Usable) (ho : o.Usable) :
    BundleName.fault? ((o.outFileName <|> m.outFileName).getD BundleName.default) = none := by
  cases hgiven : o.outFileName with
  | some name => exact ho.outFileName name hgiven
  | none =>
    cases hwritten : m.outFileName with
    | some name => exact hm.outFileName name hwritten
    | none => rfl

theorem refusal_of_usable (hm : m.Usable) (ho : o.Usable) (h : m.configure cwd base o = .error e) :
    (∃ setting, e = .missing setting) ∨ ∃ outDir inDir, e = .wipesInput outDir inDir := by
  by_cases hlacks : ∃ setting, m.Lacks o setting
  · obtain ⟨setting, hlacks⟩ := hlacks
    rw [configure_of_lacks hlacks] at h
    exact .inl ⟨setting, (Except.error.inj h).symm⟩
  · obtain ⟨inDir, outDir, hin, hout, hnew⟩ := configure_of_not_lacks hlacks cwd base
    cases Config.new_eq_error_iff.1 (hnew.symm.trans h) with
    | inDir hempty => exact absurd hempty (text_ne_empty_of_directory hin ho.inDir hm.inDir)
    | outDir _ hempty => exact absurd hempty (text_ne_empty_of_directory hout ho.outDir hm.outDir)
    | program _ _ hblank =>
      have hnot := allBlank_settings hm ho
      rw [Text.allBlank_iff.2 hblank] at hnot
      cases hnot
    | bundleName _ hbase hfirst =>
      have hfault := BundleName.stemFault?_eq_some_iff.2 hfirst
      rw [BundleName.bare_iff.1 hbase] at hfault
      cases (fault?_outFileName hm ho).symm.trans hfault
    | wipesInput => exact .inr ⟨_, _, rfl⟩

/-- Of a file that was accepted, and a command line whose own values can be used, comes a configuration
unless a directory is given by neither or the output directory would take the sources along. -/
theorem configure_of_parse {file text : String} (h : parse file text = .ok m) (ho : o.Usable) (cwd : Location)
    (base : Path) :
    ((∃ c, m.configure cwd base o = .ok c) ∨ (∃ setting, m.configure cwd base o = .error (.missing setting)) ∨
      ∃ outDir inDir, m.configure cwd base o = .error (.wipesInput outDir inDir)) ∧
    ((∃ setting, m.configure cwd base o = .error (.missing setting)) ↔
      o.inDir = none ∧ m.inDir = none ∨ o.outDir = none ∧ m.outDir = none) ∧
    (m.configure cwd base o = .error (.missing .inDir) ↔ o.inDir = none ∧ m.inDir = none) ∧
    (∀ setting, m.configure cwd base o ≠ .error (.empty setting)) ∧
    (∀ name fault, m.configure cwd base o ≠ .error (.bundleName name fault)) ∧
    ∀ p source, m.configure cwd base o ≠ .error (.unresolved p source) := by
  have hrefused {e : ConfigError} (he : m.configure cwd base o = .error e) :=
    refusal_of_usable (usable_of_parse h) ho he
  refine ⟨?_, ?_, ?_, ?_, ?_, ?_⟩
  · cases hresult : m.configure cwd base o with
    | ok c => exact .inl ⟨c, rfl⟩
    | error e =>
      rcases hrefused hresult with ⟨setting, rfl⟩ | ⟨outDir, inDir, rfl⟩
      · exact .inr (.inl ⟨setting, rfl⟩)
      · exact .inr (.inr ⟨outDir, inDir, rfl⟩)
  · simp only [configure_eq_missing_iff]
    exact exists_lacks_iff
  · rw [configure_eq_missing_iff, lacks_inDir_iff]
  · intro setting he
    simpa using hrefused he
  · intro name fault he
    simpa using hrefused he
  · intro p source he
    simpa using hrefused he

theorem configure_of_parse_sample : ∃ m, parse "dtsb.toml" "[bundle]\nout_dir = \"out\"\n" = .ok m ∧
    Overrides.empty.Usable ∧ m.configure [] ⟨"."⟩ .empty = .error (.missing .inDir) := by
  have hparse : parse "dtsb.toml" "[bundle]\nout_dir = \"out\"\n" = .ok { empty with outDir := some ⟨"out"⟩ } :=
    eq_ok_of_toOption (by decide +kernel)
  have husable : Overrides.empty.Usable := ⟨nofun, nofun, nofun, nofun⟩
  obtain ⟨-, -, hmissing, -⟩ := configure_of_parse hparse husable [] ⟨"."⟩
  exact ⟨_, hparse, husable, hmissing.2 ⟨rfl, rfl⟩⟩

inductive SamePlace (cwd : Location) : Except ConfigError Path → Except ConfigError Path → Prop
  | refused (e : ConfigError) : SamePlace cwd (.error e) (.error e)
  | found {p q : Path} (h : p.place cwd = q.place cwd) : SamePlace cwd (.ok p) (.ok q)

theorem SamePlace.of_eq {x y : Except ConfigError Path} (h : x = y) (cwd : Location) : SamePlace cwd x y := by
  subst h
  cases x with
  | ok p => exact .found rfl
  | error e => exact .refused e

structure Agree (o : Overrides) (m m' : Manifest) : Prop where
  inDir : o.inDir = none → m.inDir = m'.inDir
  outDir : o.outDir = none → m.outDir = m'.outDir
  outFileName : o.outFileName = none → m.outFileName = m'.outFileName
  clean : o.clean = none → m.clean = m'.clean
  compiler : o.program = none → m.compiler = m'.compiler

theorem Agree.refl (o : Overrides) (m : Manifest) : m.Agree o m :=
  ⟨fun _ => rfl, fun _ => rfl, fun _ => rfl, fun _ => rfl, fun _ => rfl⟩

theorem orElse_congr {α : Type} {given a b : Option α} (h : given = none → a = b) : (given <|> a) = (given <|> b) := by
  cases given with
  | some x => rfl
  | none => exact h rfl

theorem Agree.settings_eq (h : m.Agree o m') : m.settings o = m'.settings o := by
  rw [settings, settings]
  split
  · rfl
  next hprogram => exact h.compiler hprogram

theorem directory_congr (h : given = none → written = written') :
    directory setting base given written = directory setting base given written' := by
  cases given with
  | some p => rfl
  | none => rw [h rfl]

theorem configure_congr (h : m.Agree o m')
    (hin : SamePlace cwd (directory .inDir base o.inDir m.inDir) (directory .inDir base' o.inDir m'.inDir))
    (hout : SamePlace cwd (directory .outDir base o.outDir m.outDir) (directory .outDir base' o.outDir m'.outDir)) :
    m.configure cwd base o = m'.configure cwd base' o := by
  rw [configure_eq, configure_eq, policy, policy, orElse_congr h.clean, orElse_congr h.outFileName, h.settings_eq]
  generalize directory .inDir base o.inDir m.inDir = x at hin ⊢
  generalize directory .inDir base' o.inDir m'.inDir = x' at hin ⊢
  generalize directory .outDir base o.outDir m.outDir = y at hout ⊢
  generalize directory .outDir base' o.outDir m'.outDir = y' at hout ⊢
  cases hin with
  | refused e => rfl
  | found hin =>
    cases hout with
    | refused e => rfl
    | found hout => exact Config.new_congr hin hout rfl

theorem samePlace_directory (hb : base.text ≠ "") (hb' : base'.text ≠ "") (h : base.locate cwd = base'.locate cwd)
    (setting : Setting) (given written : Option Path) :
    SamePlace cwd (directory setting base given written) (directory setting base' given written) := by
  cases given with
  | some p => exact .found rfl
  | none =>
    cases written with
    | none => exact .refused _
    | some p =>
      refine .found ?_
      rw [Path.place_join hb, Path.place_join hb', h]

inductive DirectoryAt (cwd start : Location) : Option Path → Option Path → Location → Prop
  | given {d : Path} {written : Option Path} {l : Location} (h : d.absolute cwd = .ok l.path) :
    DirectoryAt cwd start (some d) written l
  | written (d : Path) : DirectoryAt cwd start none (some d) (d.locate start)

theorem directoryAt_of_resolve {p : Path} {l : Location} (h : directory setting base given written = .ok p)
    (hp : Config.resolve cwd p = .ok l) : DirectoryAt cwd (base.locate cwd) given written l := by
  rcases directory_eq_ok_iff.1 h with hgiven | ⟨hgiven, d, hwritten, rfl⟩
  · rw [hgiven]
    exact .given (Config.absolute_of_resolve hp)
  · obtain ⟨-, rfl⟩ := Path.place_eq_ok_iff.1 (mapError_eq_ok.1 hp)
    rw [hgiven, hwritten, Path.locate_join]
    exact .written d

theorem directories_of_configure {c : Config} (h : m.configure cwd base o = .ok c) :
    DirectoryAt cwd (base.locate cwd) o.inDir m.inDir c.inDir ∧
      DirectoryAt cwd (base.locate cwd) o.outDir m.outDir c.outDir := by
  rw [configure_eq] at h
  obtain ⟨inDir, hin, h⟩ := bind_eq_ok.1 h
  obtain ⟨outDir, hout, h⟩ := bind_eq_ok.1 h
  have haccepted := Config.accepted_of_new h
  exact ⟨directoryAt_of_resolve hin haccepted.inDir, directoryAt_of_resolve hout haccepted.outDir⟩

theorem configure_of_absolute {p q : Path} {n : Name} (hp : p.fileName = some n) (hq : p.absolute cwd = .ok q)
    (m : Manifest) (o : Overrides) : m.configure cwd p.directory o = m.configure cwd q.directory o := by
  obtain ⟨-, rfl⟩ := Path.absolute_eq_ok_iff.1 hq
  have hlocate : p.directory.locate cwd = (p.locate cwd).path.directory.locate cwd := by
    rw [Path.locate_directory hp, Location.directory_path, Location.locate_path]
  have hsame := samePlace_directory p.text_directory_ne_empty (p.locate cwd).path.text_directory_ne_empty hlocate
  exact configure_congr (.refl o m) (hsame _ _ _) (hsame _ _ _)

/-- What the command line gives hides what the file says. A directory of the command line is found from the
working directory, one of the file from the directory the file lies in, and it makes no difference how the
file is named. -/
theorem configure_overrides (m : Manifest) (cwd : Location) (o : Overrides) :
    (∀ m' base, m.Agree o m' → m.configure cwd base o = m'.configure cwd base o) ∧
    (∀ p n content, p.fileName = some n → ∃ q, p.absolute cwd = .ok q ∧ q.isAbsolute = true ∧
      ManifestFile.configure ⟨p, content, m⟩ cwd o = ManifestFile.configure ⟨q, content, m⟩ cwd o ∧
      p.directory.locate cwd = (p.locate cwd).parent) ∧
    (∀ base c, m.configure cwd base o = .ok c → DirectoryAt cwd (base.locate cwd) o.inDir m.inDir c.inDir ∧
      DirectoryAt cwd (base.locate cwd) o.outDir m.outDir c.outDir) ∧
    (o.inDir ≠ none → o.outDir ≠ none → ∀ base base', m.configure cwd base o = m.configure cwd base' o) := by
  refine ⟨fun m' base h => ?_, fun p n content hp => ?_, fun base c => directories_of_configure, ?_⟩
  · exact configure_congr h (.of_eq (directory_congr h.inDir) cwd) (.of_eq (directory_congr h.outDir) cwd)
  · have hne : p.text ≠ "" := by
      intro hempty
      obtain rfl : p = ⟨""⟩ := congrArg Path.mk hempty
      cases hp
    have hq : p.absolute cwd = .ok (p.locate cwd).path := Path.absolute_eq_ok_iff.2 ⟨hne, rfl⟩
    refine ⟨_, hq, Location.isAbsolute_path _, configure_of_absolute hp hq m o, ?_⟩
    rw [Path.locate_directory hp, Location.parent, List.dropLast_concat]
  · intro hin hout base base'
    have hhides (setting : Setting) {given : Option Path} (hgiven : given ≠ none) (written : Option Path) :
        directory setting base given written = directory setting base' given written := by
      obtain ⟨p, rfl⟩ := Option.ne_none_iff_exists'.1 hgiven
      rfl
    exact configure_congr (.refl o m) (.of_eq (hhides _ hin _) cwd) (.of_eq (hhides _ hout _) cwd)

namespace Sample

def home : Location :=
  Path.locate [] ⟨"home"⟩

def file : Manifest :=
  ⟨some ⟨"../src"⟩, some ⟨"out"⟩, none, none, .default⟩

def line : Overrides :=
  ⟨some ⟨"src"⟩, some ⟨"out"⟩, none, none, none⟩

end Sample

theorem configure_overrides_sample :
    (∃ q c, Path.absolute Sample.home ⟨"../conf/./dtsb.toml"⟩ = .ok q ∧
      ManifestFile.configure ⟨q, "", Sample.file⟩ Sample.home .empty = .ok c ∧
      c.inDir.path = ⟨"/src"⟩ ∧ c.bundlePath = ⟨"/conf/out/types.d.ts"⟩) ∧
    Sample.file.configure Sample.home ⟨"conf"⟩ Sample.line = Sample.file.configure Sample.home ⟨"/"⟩ Sample.line := by
  constructor
  · obtain ⟨-, hnamed, -, -⟩ := configure_overrides Sample.file Sample.home .empty
    obtain ⟨q, hq, -, hsame, -⟩ := hnamed ⟨"../conf/./dtsb.toml"⟩ ⟨"dtsb.toml", by decide⟩ "" rfl
    have hplaces : (ManifestFile.configure ⟨⟨"../conf/./dtsb.toml"⟩, "", Sample.file⟩ Sample.home .empty).toOption.any
        (fun c => c.inDir.path = ⟨"/src"⟩ ∧ c.bundlePath = ⟨"/conf/out/types.d.ts"⟩) = true := by
      decide +kernel
    obtain ⟨c, hc, hpaths⟩ := Option.any_eq_true _ _ |>.1 hplaces
    exact ⟨q, c, hq, hsame.symm.trans (eq_ok_of_toOption hc), by simpa using hpaths⟩
  · obtain ⟨-, -, -, hbase⟩ := configure_overrides Sample.file Sample.home Sample.line
    exact hbase nofun nofun _ _

end Manifest

end DeclBundle
