import DeclBundle.Proofs.Config
import DeclBundle.Proofs.FileSystem.Extent
import DeclBundle.Proofs.FileSystem.Trail
import DeclBundle.Proofs.Pass.Course
import DeclBundle.Proofs.Pass.Stages

/-!
What the removal of stale output leaves. It goes as far as what stands at the output directory or at
the bundle's path, so that a source is kept if the way to it does not lead through that, and a
directory under the bundle's name goes with all that it holds.
-/

namespace DeclBundle.Stage

open FileSystem

variable {s : Schedule} {compiler : Compiler} {st : State} {c : Config} {cwd : Location} {options : Options}
  {settings : CompilerSettings} {l k : Location} {rel : List Name} {content : ByteArray} {mode : Nat}

theorem files_cleaned (s : Schedule) (compiler : Compiler) (st : State) :
    ((Stage.run s compiler .clean).run st).2.files = cleaned st.context.config st.files :=
  (run_clean st).2.1

def LeadsThrough (fs : FileSystem) (l base : Location) : Prop :=
  ∃ b, fs.place? base.path = some b ∧ ∃ k ∈ fs.way l.path, b <+: k

instance (fs : FileSystem) (l base : Location) : Decidable (LeadsThrough fs l base) :=
  decidable_of_iff ((fs.place? base.path).any (fun b => (fs.way l.path).any (b.isPrefixOf ·)) = true) (by
    simp [LeadsThrough, Option.any_eq_true, List.isPrefixOf_iff_prefix])

theorem find_of_not_leadsThrough {base : Location} (hbase : base ≠ []) (h : ¬LeadsThrough st.files l base) :
    (st.files.remove base.path).1.find true l.path = st.files.find true l.path := by
  obtain ⟨d, n, rfl⟩ := (List.eq_nil_or_concat base).resolve_left hbase
  rw [List.concat_eq_append] at h ⊢
  apply find_path_of_way
  intro k hk
  apply get?_remove_of_apart
  intro b hb hbk
  exact h ⟨b, hb, k, hk, hbk⟩

theorem prefix_of_leadsThrough {fs : FileSystem} {base : Location} (hbase : fs.FreeOfLinks base)
    (hl : fs.FreeOfLinks l) (h : LeadsThrough fs l base) : base <+: l := by
  obtain ⟨b, hb, k, hk, hbk⟩ := h
  rw [place?_path] at hb
  cases hr : fs.resolve false maxLinks [] (base.map .down) with
  | error number => simp [hr, Except.toOption] at hb
  | ok t =>
    rw [hr] at hb
    obtain rfl := Option.some.inj hb
    rw [hbase.place_eq hr] at hbk
    exact hbk.trans (prefix_of_mem_way hl hk)

/-- A file that is reached through the input directory is kept if the way to it does not lead through
what stands at the output directory. Where there are no links it does so only for files in the output
directory, which then lies below the input directory. -/
theorem run_clean_keeps_inputs (hnew : Config.new cwd options .outDir settings = .ok c) (hc : st.context.config = c)
    (hfind : st.files.find true (Location.path (c.inDir ++ rel)) = .ok (l, .file content mode)) :
    (¬LeadsThrough st.files (c.inDir ++ rel) c.outDir →
      ((Stage.run s compiler .clean).run st).2.files.find true (Location.path (c.inDir ++ rel)) =
        .ok (l, .file content mode)) ∧
    (st.files.FreeOfLinks c.outDir → st.files.FreeOfLinks (c.inDir ++ rel) →
      LeadsThrough st.files (c.inDir ++ rel) c.outDir →
      c.outDir <+: c.inDir ++ rel ∧ c.outDir.isBelow c.inDir = true) := by
  have haccepted := Config.accepted_of_new hnew
  constructor
  · intro hapart
    rw [files_cleaned, hc, cleaned, stale?, haccepted.policy]
    exact (find_of_not_leadsThrough haccepted.outDir_ne_root hapart).trans hfind
  · intro hout hin hthrough
    have hwithin := prefix_of_leadsThrough hout hin hthrough
    exact ⟨hwithin, haccepted.isBelow_of_within hwithin⟩

namespace Sample

open Pipeline.Sample

def cleaning : Config :=
  { config with clean := .outDir }

theorem new_cleaning : Config.new [] ⟨⟨"src"⟩, ⟨"out"⟩, none⟩ .outDir .default = .ok cleaning := by
  rfl

def nested : Config :=
  { cleaning with outDir := [src, out] }

theorem new_nested : Config.new [] ⟨⟨"src"⟩, ⟨"src/out"⟩, none⟩ .outDir .default = .ok nested := by
  rfl

def within : State :=
  ⟨((FileSystem.empty.put [src] (.directory 0o755)).put [src, out] (.directory 0o755)).put [src, out, a]
    (.file "export type A = 1".toUTF8 0o644), .new nested, []⟩

def linked (place : Location) (target : String) : State :=
  let fs := (FileSystem.empty.put [out] (.directory 0o755)).put [lib] (.directory 0o755)
  let fs := (fs.put [out, a] (.file "export type A = 1".toUTF8 0o644)).put [lib, a] (.file "export type A = 2".toUTF8 0o644)
  -- the sources are a directory unless the link stands for them
  let fs := if place = [src] then fs else fs.put [src] (.directory 0o755)
  ⟨fs.put place (.link target), .new cleaning, []⟩

end Sample

theorem run_clean_keeps_inputs_sample : ∃ c st, Config.new [] ⟨⟨"src"⟩, ⟨"out"⟩, none⟩ .outDir .default = .ok c ∧
    st.context.config = c ∧ st.files.get? [Pipeline.Sample.out] = some (.directory 0o755) ∧
    ((Stage.run .inOrder Pipeline.Sample.emit .clean).run st).2.files.find true
      (Location.path (c.inDir ++ [Pipeline.Sample.lib, Pipeline.Sample.a])) =
        .ok ([Pipeline.Sample.lib, Pipeline.Sample.a], .file "export type A = 2".toUTF8 0o644) := by
  have hfind : (Sample.linked [Pipeline.Sample.src, Pipeline.Sample.lib] "../lib").files.find true
      (Location.path (Sample.cleaning.inDir ++ [Pipeline.Sample.lib, Pipeline.Sample.a])) =
        .ok ([Pipeline.Sample.lib, Pipeline.Sample.a], .file "export type A = 2".toUTF8 0o644) := by
    apply Results.eq_ok_of_toOption
    decide +kernel
  have hapart : ¬LeadsThrough (Sample.linked [Pipeline.Sample.src, Pipeline.Sample.lib] "../lib").files
      (Sample.cleaning.inDir ++ [Pipeline.Sample.lib, Pipeline.Sample.a]) Sample.cleaning.outDir := by
    decide +kernel
  exact ⟨_, Sample.linked [Pipeline.Sample.src, Pipeline.Sample.lib] "../lib", Sample.new_cleaning, rfl, by decide +kernel,
    (run_clean_keeps_inputs Sample.new_cleaning rfl hfind).1 hapart⟩

def KeepsInputs (s : Schedule) (compiler : Compiler) (st : State) (c : Config) : Prop :=
  ∀ rel l content mode, st.files.find true (Location.path (c.inDir ++ rel)) = .ok (l, .file content mode) →
    ∃ l' mode', ((Stage.run s compiler .clean).run st).2.files.find true (Location.path (c.inDir ++ rel)) =
      .ok (l', .file content mode')

theorem not_keepsInputs (rel : List Name) (content : ByteArray) (mode : Nat)
    (hthere : (st.files.find true (Location.path (c.inDir ++ rel))).toOption.map Prod.snd = some (.file content mode))
    (hlost : (((Stage.run s compiler .clean).run st).2.files.find true (Location.path (c.inDir ++ rel))).toOption =
      none) : ¬KeepsInputs s compiler st c := by
  intro h
  obtain ⟨⟨l, e⟩, hfind, he⟩ := Option.map_eq_some_iff.1 hthere
  obtain ⟨l', mode', hkept⟩ := h rel l content mode (Results.eq_ok_of_toOption (by rw [hfind, ← he]))
  rw [hkept] at hlost
  cases hlost

theorem not_forall_clean_keeps_inputs :
    (¬∀ (s : Schedule) (compiler : Compiler) (cwd : Location) (options : Options) (settings : CompilerSettings)
      (c : Config) (st : State), Config.new cwd options .outDir settings = .ok c → st.context.config = c →
      (∀ k text, st.files.get? k ≠ some (.link text)) → KeepsInputs s compiler st c) ∧
    ¬∀ (s : Schedule) (compiler : Compiler) (cwd : Location) (options : Options) (settings : CompilerSettings)
      (c : Config) (st : State), Config.new cwd options .outDir settings = .ok c → st.context.config = c →
      c.outDir.isBelow c.inDir = false → KeepsInputs s compiler st c := by
  constructor
  · intro h
    have hlost : ¬KeepsInputs .inOrder Pipeline.Sample.emit Sample.within Sample.nested :=
      not_keepsInputs [Pipeline.Sample.out, Pipeline.Sample.a] "export type A = 1".toUTF8 0o644
        (by decide +kernel) (by decide +kernel)
    exact hlost (h _ _ _ _ _ _ _ Sample.new_nested rfl (FileSystem.get?_ne_link (by decide +kernel)))
  · intro h
    have hlost : ¬KeepsInputs .inOrder Pipeline.Sample.emit (Sample.linked [Pipeline.Sample.src] "out") Sample.cleaning :=
      not_keepsInputs [Pipeline.Sample.a] "export type A = 1".toUTF8 0o644 (by decide +kernel) (by decide +kernel)
    exact hlost (h _ _ _ _ _ _ _ Sample.new_cleaning rfl (by decide +kernel))

/-- A bundle that is cleaned away takes with it what is below it and nothing else, so that all else
stays as it was if and only if no directory that holds something stands at its path. -/
theorem run_clean_bundle_frame_iff (hc : st.context.config.clean = .bundle) :
    ((∀ k, st.files.place? st.context.config.bundlePath ≠ some k →
        ((Stage.run s compiler .clean).run st).2.files.get? k = st.files.get? k) ↔
      ∀ l mode, st.files.find false st.context.config.bundlePath = .ok (l, .directory mode) →
        st.files.isOccupied l = false) ∧
    ∀ k, (∀ l, st.files.place? st.context.config.bundlePath = some l → ¬l <+: k) →
      ((Stage.run s compiler .clean).run st).2.files.get? k = st.files.get? k := by
  rw [files_cleaned, cleaned, stale?, hc]
  exact ⟨remove_frame_iff, fun k hk => get?_remove_of_apart hk⟩

namespace Sample

open Pipeline.Sample

def replacing : Config :=
  { config with clean := .bundle }

def leftover : State :=
  ⟨((FileSystem.empty.put [out] (.directory 0o755)).put [out, types] (.file "export type A = 1".toUTF8 0o644)).put
    [out, a] (.file "export type A = 2".toUTF8 0o644), .new replacing, []⟩

def mistaken : State :=
  ⟨((FileSystem.empty.put [out] (.directory 0o755)).put [out, types] (.directory 0o755)).put [out, types, a]
    (.file "export type A = 1".toUTF8 0o644), .new replacing, []⟩

end Sample

theorem run_clean_bundle_frame_sample : ∃ st, st.context.config.clean = .bundle ∧
    st.files.entryAt? st.context.config.bundlePath = some (.file "export type A = 1".toUTF8 0o644) ∧
    ∀ k, st.files.place? st.context.config.bundlePath ≠ some k →
      ((Stage.run .inOrder Pipeline.Sample.emit .clean).run st).2.files.get? k = st.files.get? k := by
  have hentry : Sample.leftover.files.entryAt? Sample.leftover.context.config.bundlePath =
      some (.file "export type A = 1".toUTF8 0o644) := by
    decide +kernel
  refine ⟨Sample.leftover, rfl, hentry, (run_clean_bundle_frame_iff rfl).1.2 ?_⟩
  intro l mode hfind
  have hdirectory := (entryAt?_of_find hfind).symm.trans hentry
  cases hdirectory

theorem not_forall_clean_bundle_frame : ¬∀ (s : Schedule) (compiler : Compiler) (st : State),
    st.context.config.clean = .bundle → ∀ k, st.files.place? st.context.config.bundlePath ≠ some k →
      ((Stage.run s compiler .clean).run st).2.files.get? k = st.files.get? k := by
  intro h
  have hplace : Sample.mistaken.files.place? Sample.mistaken.context.config.bundlePath ≠
      some [Pipeline.Sample.out, Pipeline.Sample.types, Pipeline.Sample.a] := by
    decide +kernel
  have hkept := h .inOrder Pipeline.Sample.emit Sample.mistaken rfl _ hplace
  have hlost : ((Stage.run .inOrder Pipeline.Sample.emit .clean).run Sample.mistaken).2.files.get?
      [Pipeline.Sample.out, Pipeline.Sample.types, Pipeline.Sample.a] = none := by
    decide +kernel
  rw [hlost] at hkept
  have hstood : Sample.mistaken.files.get? [Pipeline.Sample.out, Pipeline.Sample.types, Pipeline.Sample.a] =
      some (.file "export type A = 1".toUTF8 0o644) := by
    decide +kernel
  rw [hstood] at hkept
  cases hkept

end DeclBundle.Stage
