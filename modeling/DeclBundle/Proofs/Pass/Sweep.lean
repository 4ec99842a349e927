import DeclBundle.Proofs.FileSystem.Snapshots
import DeclBundle.Proofs.Pass.Removals
import DeclBundle.Proofs.Pass.Success

/-!
What the removal of intermediate files leaves, where no link leads off the way to the output
directory. Nothing that was there before lies within a removed path, since the first snapshot holds
with a path all that is above it, and the bundle lies directly in the directory.
-/

namespace DeclBundle.Pipeline

open FileSystem Stage

variable {compiler : Compiler} {s : Schedule} {c : Config} {fs : FileSystem} {done : State}
  {before after : PathSet} {found : List Path} {texts : List String} {l : Location}

theorem bundle_isBelow (c : Config) : c.bundle.isBelow c.outDir = true :=
  isBelow_iff_append.2 ⟨[c.bundleName], by simp, rfl⟩

theorem eq_bundle_of_above (hl : l.isBelow c.outDir = true) (h : l <+: c.bundle) : l = c.bundle := by
  obtain ⟨rel, hrel, rfl⟩ := isBelow_iff_append.1 hl
  rw [Config.bundle, List.prefix_append_right_inj] at h
  rcases List.prefix_cons_iff.1 h with rfl | ⟨rest, rfl, hrest⟩
  · exact absurd rfl hrel
  · rw [List.prefix_nil.1 hrest, Config.bundle]

theorem Course.merged_eq (hc : Course compiler s c fs before after found texts)
    (hfree : (compiled compiler s c fs).FreeOfLinks c.outDir) :
    (∃ mode, (merged compiler s c fs).get? c.bundle = some (.file (Declaration.merge texts).toUTF8 mode)) ∧
    (merged compiler s c fs).FreeOfLinks c.outDir ∧
    ∀ l, l.isBelow c.outDir = true → l ≠ c.bundle →
      (merged compiler s c fs).get? l = (compiled compiler s c fs).get? l := by
  obtain ⟨-, prepared, k, mode, hgrown, -, hk, hr⟩ := hc.written_bundle
  have hfree' : prepared.FreeOfLinks c.outDir := hgrown.freeOfLinks hfree
  obtain rfl := hk.eq_of_free hfree'
  refine ⟨⟨mode, hr.get?_place⟩, ?_, ?_⟩
  · intro j hj text
    rw [hr.get?_eq]
    split
    · simp
    · exact hfree' j hj text
  · intro l hl hne
    rw [hr.get?_eq, if_neg (show l ≠ c.outDir ++ [c.bundleName] from hne)]
    cases hcomp : (compiled compiler s c fs).get? l with
    | some e => exact hgrown.kept l e hcomp
    | none =>
      cases hprep : prepared.get? l with
      | none => rfl
      | some e =>
        -- a directory that was made is at or above the output directory
        obtain ⟨-, j, hj, hlead⟩ := hgrown.made l e hprep hcomp
        obtain rfl := hlead.eq_of_free (hfree'.above hj)
        obtain ⟨hle, hne'⟩ := isBelow_iff.1 hl
        exact absurd (hle.eq_of_length_le hj.length_le) hne'

theorem Course.mem_after (hc : Course compiler s c fs before after found texts)
    (hfree : (compiled compiler s c fs).FreeOfLinks c.outDir) (l : Location) : l.path ∈ after.toList ↔
    l.isBelow c.outDir = true ∧ ∃ e, (merged compiler s c fs).get? l = some e := by
  obtain ⟨-, hfree', -⟩ := hc.merged_eq hfree
  exact mem_snapshot_of_free hc.revisited hfree' l

structure Swept (c : Config) (before : PathSet) (tree : FileSystem) (done : State) (places : List Location) :
    Prop where
  below : ∀ l ∈ places, l.isBelow c.outDir = true ∧ l ≠ c.bundle ∧ l.path ∉ before.toList
  get?_eq : ∀ k, done.files.get? k =
    if ∃ l ∈ places, l <+: k ∧ outcome l.path = .removed then none else tree.get? k
  removals : done.context.removals.Perm (places.map fun l => (l.path, outcome l.path))

theorem Success.exists_swept (hs : Success compiler s c fs done before after found texts)
    (hfree : (compiled compiler s c fs).FreeOfLinks c.outDir) : ∃ places : List Location,
    doomed s before after c.bundlePath = places.map Location.path ∧
      Swept c before (merged compiler s c fs) done places := by
  obtain ⟨-, hfree', -⟩ := hs.merged_eq hfree
  obtain ⟨places, hplaces, hscattered⟩ := exists_scattered hs.revisited hfree' (doomed_perm s before after c.bundlePath)
  have hmem {l : Location} (hl : l ∈ places) : l.path ∈ doomed s before after c.bundlePath := by
    rw [hplaces]
    exact List.mem_map_of_mem hl
  obtain ⟨hdone, hget⟩ := removeAll_paths hscattered.stands hscattered.not_prefix
  refine ⟨places, hplaces, ?_⟩
  constructor
  case below =>
    intro l hl
    obtain ⟨-, hbundle, hbefore⟩ := mem_doomed (hmem hl)
    refine ⟨((hs.mem_after hfree l).1 (mem_doomed (hmem hl)).1).1, ?_, ?_⟩
    · rintro rfl
      rw [Config.bundlePath, Location.same_path_iff.2 rfl] at hbundle
      cases hbundle
    · intro h
      rw [PathSet.contains_of_mem h] at hbefore
      cases hbefore
  case get?_eq =>
    rw [hs.files_eq, hplaces]
    exact hget
  case removals =>
    rw [hs.removals_eq, hplaces, hdone]
    exact sortRemovals_perm _

theorem Swept.get?_of_spared {tree : FileSystem} {places : List Location} (hw : Swept c before tree done places)
    (h : ∀ j ∈ places, ¬j <+: l) : done.files.get? l = tree.get? l := by
  rw [hw.get?_eq, if_neg]
  rintro ⟨j, hj, hjl, -⟩
  exact h j hj hjl

theorem Swept.get?_of_mem_before {tree : FileSystem} {places : List Location}
    (hw : Swept c before tree done places) (hclosed : Closed c.outDir before) (h : l.path ∈ before.toList) :
    done.files.get? l = tree.get? l := by
  apply hw.get?_of_spared
  intro j hj hjl
  obtain ⟨hbelow, -, hnot⟩ := hw.below j hj
  exact hnot (hclosed.mem_above hbelow hjl h)

theorem Swept.get?_of_prefix_bundle {tree : FileSystem} {places : List Location}
    (hw : Swept c before tree done places) (h : l <+: c.bundle) : done.files.get? l = tree.get? l := by
  apply hw.get?_of_spared
  intro j hj hjl
  obtain ⟨hbelow, hne, -⟩ := hw.below j hj
  exact hne (eq_bundle_of_above hbelow (hjl.trans h))

theorem Swept.outcome_of_failed {tree : FileSystem} {places : List Location}
    (hw : Swept c before tree done places) (h : done.context.failed = []) (hl : l ∈ places) :
    outcome l.path = .removed := by
  have hmem := hw.removals.mem_iff.2 (List.mem_map_of_mem hl)
  have hnone := List.filterMap_eq_nil_iff.1 h _ hmem
  cases ho : accept l.path with
  | ok u => simp [outcome, ho]
  | error err => simp [outcome, ho, Removal.error?] at hnone

theorem Swept.failed_eq_nil {tree : FileSystem} {places : List Location} (hw : Swept c before tree done places)
    (h : ∀ l ∈ places, outcome l.path = .removed) : done.context.failed = [] := by
  apply List.filterMap_eq_nil_iff.2
  intro r hr
  obtain ⟨l, hl, rfl⟩ := List.mem_map.1 (hw.removals.mem_iff.1 hr)
  rw [h l hl]
  rfl

theorem Swept.get?_before {tree : FileSystem} {places : List Location} {e : Entry}
    (hw : Swept c before tree done places) (h : done.files.get? l = some e) : tree.get? l = some e := by
  rw [hw.get?_eq] at h
  split at h
  · cases h
  · exact h

theorem Success.exists_get?_iff (hs : Success compiler s c fs done before after found texts)
    (hfree : (compiled compiler s c fs).FreeOfLinks c.outDir) (hfailed : done.context.failed = [])
    (hl : l.isBelow c.outDir = true) : (∃ e, done.files.get? l = some e) ↔
      l.path ∈ after.toList ∧ (l.path ∈ before.toList ∨ l = c.bundle) := by
  obtain ⟨places, hplaces, hw⟩ := hs.exists_swept hfree
  have hclosed : Closed c.outDir before := closed_of_snapshotOrEmpty hs.recorded
  constructor
  · rintro ⟨e, he⟩
    have hafter := (hs.mem_after hfree l).2 ⟨hl, e, hw.get?_before he⟩
    refine ⟨hafter, Classical.byContradiction fun hno => ?_⟩
    rw [not_or] at hno
    have hbundle : l.path.same c.bundlePath = false := by
      rw [Bool.eq_false_iff, ne_eq, Config.bundlePath, Location.same_path_iff]
      exact hno.2
    have hbefore : before.contains l.path = false := by
      rw [Bool.eq_false_iff, ne_eq, hclosed.contains_iff]
      exact hno.1
    obtain ⟨q, hq, hwithin⟩ := exists_doomed (s := s) hafter hbundle hbefore
    rw [hplaces] at hq
    obtain ⟨j, hj, rfl⟩ := List.mem_map.1 hq
    rw [hw.get?_eq, if_pos ⟨j, hj, Location.isWithin_path_iff.1 hwithin, hw.outcome_of_failed hfailed hj⟩] at he
    cases he
  · rintro ⟨hafter, hkept⟩
    obtain ⟨-, e, he⟩ := (hs.mem_after hfree l).1 hafter
    refine ⟨e, ?_⟩
    rcases hkept with hbefore | rfl
    · rw [hw.get?_of_mem_before hclosed hbefore, he]
    · rw [hw.get?_of_prefix_bundle (List.prefix_refl _), he]

end DeclBundle.Pipeline
