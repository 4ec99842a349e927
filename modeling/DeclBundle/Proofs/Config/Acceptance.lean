import DeclBundle.Proofs.Config
import DeclBundle.Proofs.Path
import DeclBundle.Proofs.PathSet.Roots

/-!
Which configurations are accepted, and what every accepted one keeps to. Options are refused for the
first of their faults, in a fixed order. Whatever name is given to a bundle, it stands directly in the
output directory.
-/

namespace DeclBundle

namespace Text

theorem allBlank_iff {text : String} : allBlank text = true ↔ ∀ c ∈ text.toList, isBlank c = true := by
  rw [allBlank, List.all_eq_true]

theorem allBlank_eq_false_iff {text : String} : allBlank text = false ↔ ∃ c ∈ text.toList, isBlank c = false := by
  rw [allBlank, List.all_eq_false]
  simp

end Text

namespace BundleName

variable {given base : String} {fault : Fault} {n : Name}

def Bare (given base : String) : Prop :=
  given = base ++ Declaration.suffix ∨ base = given ∧ ∀ front, given ≠ front ++ Declaration.suffix

theorem stem_append_suffix (base : String) : stem (base ++ Declaration.suffix) = base := by
  rw [stem, if_pos (by simp), ← String.toList_inj]
  simp

theorem bare_iff : Bare given base ↔ base = stem given := by
  by_cases h : ∃ front, given = front ++ Declaration.suffix
  · obtain ⟨front, rfl⟩ := h
    have happend : front ++ Declaration.suffix = base ++ Declaration.suffix ↔ base = front := by
      rw [← String.toList_inj, String.toList_append, String.toList_append, List.append_cancel_right_eq,
        String.toList_inj, eq_comm]
    rw [stem_append_suffix, Bare, happend]
    simp
  · have hnone (front : String) : given ≠ front ++ Declaration.suffix := fun heq => h ⟨front, heq⟩
    have hstem : stem given = given := by
      rw [stem, if_neg]
      intro hsuffix
      obtain ⟨front, hfront⟩ := List.isSuffixOf_iff_suffix.1 hsuffix
      apply hnone (String.ofList front)
      rw [← String.toList_inj, String.toList_append, String.toList_ofList, hfront]
    rw [hstem, Bare]
    simp [hnone]

namespace Fault

def Holds : Fault → String → Prop
  | empty, base => ∀ c ∈ base.toList, Text.isBlank c = true
  | notPlain, base => '/' ∈ base.toList ∨ '\\' ∈ base.toList
  | dots, base => base = "." ∨ base = ".."
  | nul, base => '\x00' ∈ base.toList

instance : (fault : Fault) → (base : String) → Decidable (fault.Holds base)
  | empty, _ => decidable_of_iff _ Text.allBlank_iff
  | notPlain, base => inferInstanceAs (Decidable ('/' ∈ base.toList ∨ '\\' ∈ base.toList))
  | dots, base => inferInstanceAs (Decidable (base = "." ∨ base = ".."))
  | nul, base => inferInstanceAs (Decidable ('\x00' ∈ base.toList))

def all : List Fault :=
  [empty, notPlain, dots, nul]

theorem mem_all (fault : Fault) : fault ∈ all := by
  cases fault <;> simp [all]

def First (fault : Fault) (base : String) : Prop :=
  fault.Holds base ∧ ∃ earlier later, all = earlier ++ fault :: later ∧ ∀ other ∈ earlier, ¬other.Holds base

end Fault

theorem stemFault?_eq (base : String) : stemFault? base = Fault.all.find? fun fault => decide (fault.Holds base) := by
  have htold {b : Bool} {fault : Fault} (h : b = true ↔ fault.Holds base) : b = decide (fault.Holds base) := by
    rw [Bool.eq_iff_iff, decide_eq_true_eq, h]
  have hblank : Text.allBlank base = decide (Fault.empty.Holds base) := htold Text.allBlank_iff
  have hplain : (base.toList.contains '/' || base.toList.contains '\\') = decide (Fault.notPlain.Holds base) :=
    htold (by simp [Fault.Holds])
  have hdots : (base = "." || base = "..") = decide (Fault.dots.Holds base) := htold (by simp [Fault.Holds])
  have hnul : base.toList.contains '\x00' = decide (Fault.nul.Holds base) := htold (by simp [Fault.Holds])
  rw [stemFault?, hblank, hplain, hdots, hnul]
  simp only [Fault.all, List.find?_cons, List.find?_nil]
  cases decide (Fault.empty.Holds base)
  · cases decide (Fault.notPlain.Holds base)
    · cases decide (Fault.dots.Holds base)
      · cases decide (Fault.nul.Holds base) <;> rfl
      · rfl
    · rfl
  · rfl

theorem stemFault?_eq_some_iff : stemFault? base = some fault ↔ fault.First base := by
  simp [stemFault?_eq, List.find?_eq_some_iff_append, Fault.First]

theorem stemFault?_eq_none_iff : stemFault? base = none ↔ ∀ fault : Fault, ¬fault.Holds base := by
  simp [stemFault?_eq, List.find?_eq_none, Fault.mem_all]

theorem fileName_eq_error_iff : fileName given = .error fault ↔ ∃ base, Bare given base ∧ fault.First base := by
  simp only [bare_iff, exists_eq_left, ← stemFault?_eq_some_iff]
  rw [fileName]
  split
  next h => rw [h, Except.error.injEq, Option.some.injEq]
  next h => simp [h]

theorem exists_fileName_iff : (∃ n, fileName given = .ok n) ↔
    ∃ base, Bare given base ∧ ∀ fault : Fault, ¬fault.Holds base := by
  simp only [bare_iff, exists_eq_left, ← stemFault?_eq_none_iff]
  rw [fileName]
  split
  next h => simp [h]
  next h => simp [h]

end BundleName

namespace Config

open Results

variable {cwd : Location} {o : Options} {clean : CleanPolicy} {settings : CompilerSettings} {c : Config}
  {e : ConfigError}

structure Complete (o : Options) (settings : CompilerSettings) : Prop where
  inDir : o.inDir.text ≠ ""
  outDir : o.outDir.text ≠ ""
  program : ∃ c ∈ settings.program.toList, Text.isBlank c = false

theorem resolve_eq {p : Path} (h : p.text ≠ "") (cwd : Location) : resolve cwd p = .ok (p.locate cwd) := by
  rw [resolve, Path.place, if_neg h, mapError_ok]

theorem new_eq (cwd : Location) (o : Options) (clean : CleanPolicy) (settings : CompilerSettings) :
    new cwd o clean settings = (do
      let inDir ← (o.inDir.place cwd).mapError fun _ => .empty .inDir
      let outDir ← (o.outDir.place cwd).mapError fun _ => .empty .outDir
      if Text.allBlank settings.program then
        throw (.empty .program)
      let given := o.outFileName.getD BundleName.default
      let n ← (BundleName.fileName given).mapError (.bundleName given)
      if clean = .outDir ∧ outDir <+: inDir then
        throw (.wipesInput outDir.path inDir.path)
      return ⟨inDir, outDir, n, clean, settings⟩) := by
  rw [new, Path.place, Path.place]
  by_cases hin : o.inDir.text = ""
  · rw [if_pos hin, if_pos hin, mapError_error, error_bind]
  by_cases hout : o.outDir.text = ""
  · rw [if_neg hin, if_neg hin, if_pos hout, if_pos hout, mapError_ok, mapError_error, ok_bind, error_bind]
  rw [if_neg hin, if_neg hin, if_neg hout, if_neg hout, resolve_eq hin, resolve_eq hout]
  simp only [mapError_ok, ok_bind, List.isPrefixOf_iff_prefix]
  split
  · rfl
  · rfl

theorem new_congr {o' : Options} (hin : o.inDir.place cwd = o'.inDir.place cwd)
    (hout : o.outDir.place cwd = o'.outDir.place cwd) (hname : o.outFileName = o'.outFileName) :
    new cwd o clean settings = new cwd o' clean settings := by
  rw [new_eq, new_eq, hin, hout, hname]

theorem new_of_complete (h : Complete o settings) : new cwd o clean settings =
    match BundleName.fileName (o.outFileName.getD BundleName.default) with
    | .error fault => .error (.bundleName (o.outFileName.getD BundleName.default) fault)
    | .ok n =>
      if clean = .outDir ∧ o.outDir.locate cwd <+: o.inDir.locate cwd then
        .error (.wipesInput (o.outDir.locate cwd).path (o.inDir.locate cwd).path)
      else .ok ⟨o.inDir.locate cwd, o.outDir.locate cwd, n, clean, settings⟩ := by
  have hprogram := Text.allBlank_eq_false_iff.2 h.program
  rw [new_eq, Path.place, if_neg h.inDir, Path.place, if_neg h.outDir, mapError_ok, ok_bind, mapError_ok, ok_bind]
  dsimp only
  rw [if_neg (by simp [hprogram])]
  cases BundleName.fileName (o.outFileName.getD BundleName.default) with
  | error fault => rfl
  | ok n =>
    simp only [mapError_ok, ok_bind, throw_eq_error]
    split <;> rfl

/-- Why options are refused: each fault is told if no fault before it is there. -/
inductive Refusal (cwd : Location) (o : Options) (clean : CleanPolicy) (settings : CompilerSettings) :
    ConfigError → Prop
  | inDir (h : o.inDir.text = "") : Refusal cwd o clean settings (.empty .inDir)
  | outDir (hin : o.inDir.text ≠ "") (h : o.outDir.text = "") : Refusal cwd o clean settings (.empty .outDir)
  | program (hin : o.inDir.text ≠ "") (hout : o.outDir.text ≠ "")
    (h : ∀ c ∈ settings.program.toList, Text.isBlank c = true) : Refusal cwd o clean settings (.empty .program)
  | bundleName {base : String} {fault : BundleName.Fault} (hcomplete : Complete o settings)
    (hbase : BundleName.Bare (o.outFileName.getD "types") base) (h : fault.First base) :
    Refusal cwd o clean settings (.bundleName (o.outFileName.getD "types") fault)
  | wipesInput {base : String} {inDir outDir : Path} (hcomplete : Complete o settings)
    (hbase : BundleName.Bare (o.outFileName.getD "types") base) (hname : ∀ fault : BundleName.Fault, ¬fault.Holds base)
    (hclean : clean = .outDir) (hin : o.inDir.absolute cwd = .ok inDir) (hout : o.outDir.absolute cwd = .ok outDir)
    (h : outDir.components <+: inDir.components) : Refusal cwd o clean settings (.wipesInput outDir inDir)

theorem new_of_refusal (h : Refusal cwd o clean settings e) : new cwd o clean settings = .error e := by
  cases h with
  | inDir h => rw [new, if_pos h]
  | outDir hin h => rw [new, if_neg hin, if_pos h]
  | program hin hout h => rw [new, if_neg hin, if_neg hout, if_pos (Text.allBlank_iff.2 h)]
  | bundleName hcomplete hbase h =>
    have hname := BundleName.fileName_eq_error_iff.2 ⟨_, hbase, h⟩
    change BundleName.fileName (o.outFileName.getD BundleName.default) = _ at hname
    rw [new_of_complete hcomplete, hname]
    rfl
  | wipesInput hcomplete hbase hname hclean hin hout h =>
    obtain ⟨n, hn⟩ := BundleName.exists_fileName_iff.2 ⟨_, hbase, hname⟩
    obtain ⟨-, rfl⟩ := Path.absolute_eq_ok_iff.1 hin
    obtain ⟨-, rfl⟩ := Path.absolute_eq_ok_iff.1 hout
    have hwithin := Location.isWithin_path_iff.1 (Path.isWithin_iff.2 h)
    change BundleName.fileName (o.outFileName.getD BundleName.default) = _ at hn
    rw [new_of_complete hcomplete, hn]
    exact if_pos ⟨hclean, hwithin⟩

theorem refusal_of_new (h : new cwd o clean settings = .error e) : Refusal cwd o clean settings e := by
  by_cases hin : o.inDir.text = ""
  · rw [new, if_pos hin] at h
    cases h
    exact .inDir hin
  by_cases hout : o.outDir.text = ""
  · rw [new, if_neg hin, if_pos hout] at h
    cases h
    exact .outDir hin hout
  cases hprogram : Text.allBlank settings.program with
  | true =>
    rw [new, if_neg hin, if_neg hout, if_pos hprogram] at h
    cases h
    exact .program hin hout (Text.allBlank_iff.1 hprogram)
  | false =>
    have hcomplete : Complete o settings := ⟨hin, hout, Text.allBlank_eq_false_iff.1 hprogram⟩
    rw [new_of_complete hcomplete] at h
    split at h
    next fault hname =>
      cases h
      obtain ⟨base, hbase, hfirst⟩ := BundleName.fileName_eq_error_iff.1 hname
      exact .bundleName hcomplete hbase hfirst
    next n hname =>
      obtain ⟨base, hbase, hno⟩ := BundleName.exists_fileName_iff.1 ⟨n, hname⟩
      split at h
      next hwipes =>
        cases h
        refine .wipesInput hcomplete hbase hno hwipes.1 (Path.absolute_eq_ok_iff.2 ⟨hin, rfl⟩)
          (Path.absolute_eq_ok_iff.2 ⟨hout, rfl⟩) ?_
        exact Path.isWithin_iff.1 (Location.isWithin_path_iff.2 hwipes.2)
      next => cases h

theorem new_eq_error_iff : new cwd o clean settings = .error e ↔ Refusal cwd o clean settings e :=
  ⟨refusal_of_new, new_of_refusal⟩

structure Settled (cwd : Location) (o : Options) (clean : CleanPolicy) (settings : CompilerSettings) (c : Config) :
    Prop where
  inDir_eq : o.inDir.absolute cwd = .ok c.inDir.path
  outDir_eq : o.outDir.absolute cwd = .ok c.outDir.path
  policy : c.clean = clean
  compiler : c.compiler = settings
  inDir_normal : c.inDir.path.IsNormal
  outDir_normal : c.outDir.path.IsNormal
  parent_eq : c.bundlePath.parent = some c.outDir.path
  components_eq : ∃ n, c.bundlePath.components = c.outDir.path.components ++ [.name n]
  isDeclaration : Declaration.isDeclaration c.bundlePath = true
  apart : clean = .outDir → c.inDir.path.isWithin c.outDir.path = false

theorem absolute_of_resolve {p : Path} {l : Location} (h : resolve cwd p = .ok l) : p.absolute cwd = .ok l.path := by
  rw [Path.absolute, mapError_eq_ok.1 h, map_ok]

theorem Accepted.settled (h : Accepted cwd o clean settings c) : Settled cwd o clean settings c where
  inDir_eq := absolute_of_resolve h.inDir
  outDir_eq := absolute_of_resolve h.outDir
  policy := h.policy
  compiler := h.compiler
  inDir_normal := Path.isNormal_path c.inDir
  outDir_normal := Path.isNormal_path c.outDir
  parent_eq := Location.parent_path c.outDir c.bundleName
  components_eq := by
    refine ⟨c.bundleName, ?_⟩
    rw [bundlePath, bundle, Location.components_path, Location.components_path, List.map_append, List.map_singleton,
      List.cons_append]
  isDeclaration := h.isDeclaration
  apart := by
    intro hclean
    rw [Bool.eq_false_iff, ne_eq, Location.isWithin_path_iff]
    exact h.apart hclean

/-- Options are refused for the first of their faults and for nothing else, and never because a path
has no place. What is accepted has directories in normal form, and its bundle stands directly in the
output directory. -/
theorem new_acceptance (cwd : Location) (o : Options) (clean : CleanPolicy) (settings : CompilerSettings) :
    (∀ e, new cwd o clean settings = .error e ↔ Refusal cwd o clean settings e) ∧
    ((∃ c, new cwd o clean settings = .ok c) ↔ ∀ e, ¬Refusal cwd o clean settings e) ∧
    (∀ p source, new cwd o clean settings ≠ .error (.unresolved p source)) ∧
    ∀ c, new cwd o clean settings = .ok c → Settled cwd o clean settings c := by
  refine ⟨fun e => new_eq_error_iff, ?_, ?_, fun c h => (accepted_of_new h).settled⟩
  · simp only [← new_eq_error_iff]
    cases new cwd o clean settings with
    | ok c => simp
    | error e => simp
  · intro p source h
    cases new_eq_error_iff.1 h

theorem new_acceptance_sample : (∃ c, Settled [] ⟨⟨"/a/../src/."⟩, ⟨"//out/"⟩, some "..d.ts.d.ts"⟩ .outDir .default c) ∧
    new [] ⟨⟨"src"⟩, ⟨"out"⟩, some "..d.ts"⟩ .outDir .default = .error (.bundleName "..d.ts" .dots) ∧
    new [] ⟨⟨"out/src"⟩, ⟨"./out"⟩, none⟩ .outDir .default = .error (.wipesInput ⟨"/out"⟩ ⟨"/out/src"⟩) := by
  have hprogram : ∃ c ∈ CompilerSettings.default.program.toList, Text.isBlank c = false := ⟨'t', by decide, by decide⟩
  refine ⟨?_, ?_, ?_⟩
  · obtain ⟨-, -, -, hok⟩ := new_acceptance [] ⟨⟨"/a/../src/."⟩, ⟨"//out/"⟩, some "..d.ts.d.ts"⟩ .outDir .default
    exact ⟨⟨[⟨"src", by decide⟩], [⟨"out", by decide⟩], ⟨"..d.ts.d.ts", by decide⟩, .outDir, .default⟩, hok _ (by rfl)⟩
  · have hbase : BundleName.Bare "..d.ts" "." := .inl rfl
    refine ((new_acceptance _ _ _ _).1 _).2 (.bundleName ⟨by decide, by decide, hprogram⟩ hbase ?_)
    exact ⟨.inl rfl, [.empty, .notPlain], [.nul], rfl, by decide⟩
  · have hbase : BundleName.Bare "types" "types" := BundleName.bare_iff.2 (by decide)
    refine ((new_acceptance _ _ _ _).1 _).2
      (.wipesInput ⟨by decide, by decide, hprogram⟩ hbase ?_ rfl rfl rfl (by decide))
    intro fault
    cases fault <;> decide

end Config

end DeclBundle
