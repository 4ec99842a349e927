import DeclBundle.Proofs.FileSystem.Lookup
import DeclBundle.Proofs.FileSystem.Snapshots

/-!
Snapshots of a root that may not be there. Whether it is there is asked of the root as it is written,
and what is below it of its absolute form, in which each `..` has taken a name away without a look at the
tree. So the two can be of different places, unless nothing in the root makes a difference to them.
-/

namespace DeclBundle.FileSystem

variable {fs : FileSystem} {s s' : Schedule} {l base : Location} {root : Path} {e : Entry} {paths : PathSet}
  {follow : Bool} {links : Nat} {steps : List Step} {err : IoError} {x : Location × Entry}

structure Agrees (fs : FileSystem) (s s' : Schedule) (root : Path) : Prop where
  listed : ∀ paths, fs.snapshot s root = .ok paths → fs.snapshotOrEmpty s' root = .ok paths
  absent : ∀ err q, fs.snapshot s root = .error err → fs.snapshotOrEmpty s' root = .ok ∅ →
    root.absolute fs.cwd = .ok q → fs.entryAt? q = none

theorem exists_absolute_of_snapshot (h : fs.snapshot s root = .ok paths) :
    ∃ base, root.absolute fs.cwd = .ok (Location.path base) ∧ fs.snapshot s base.path = .ok paths := by
  have hall := h
  rw [snapshot, Results.bind_eq_ok] at h
  obtain ⟨q, hq, -⟩ := h
  obtain ⟨-, rfl⟩ := Path.absolute_eq_ok_iff.1 hq
  exact ⟨_, hq, (snapshot_of_absolute hq s).symm.trans hall⟩

theorem snapshot_congr (h : fs.snapshot s root = .ok paths) (s' : Schedule) : fs.snapshot s' root = .ok paths := by
  obtain ⟨base, hroot, h⟩ := exists_absolute_of_snapshot h
  rw [snapshot_of_absolute hroot, snapshot_path_eq_ok_iff]
  exact snapshot_path_eq_ok_iff.1 h

theorem exists_entryAt?_of_snapshot (h : fs.snapshot s base.path = .ok paths) :
    ∃ e, fs.entryAt? base.path = some e := by
  obtain ⟨l, e, hf, -, -⟩ := snapshot_path_eq_ok_iff.1 h
  exact exists_entryAt?_of_find hf

theorem snapshot_path_eq_empty_iff : fs.snapshot s base.path = .ok ∅ ↔
    ∃ l e, fs.find true base.path = .ok (l, e) ∧ fs.isOccupied l = false := by
  rw [snapshot_path_eq_ok_iff]
  constructor
  · rintro ⟨l, e, hf, -, hmem⟩
    refine ⟨l, e, hf, isOccupied_eq_false_iff.2 ?_⟩
    intro rel hrel
    cases hget : fs.get? (l ++ rel) with
    | none => rfl
    | some e' => exact absurd ((hmem _).2 ⟨e', rel, hrel, hget, rfl⟩) List.not_mem_nil
  · rintro ⟨l, e, hf, hfree⟩
    have hnone := isOccupied_eq_false_iff.1 hfree
    refine ⟨l, e, hf, ?_, ?_⟩
    · intro rel mode hrel hget
      rw [hnone rel hrel] at hget
      cases hget
    · intro q
      constructor
      · intro hq
        exact absurd hq List.not_mem_nil
      · rintro ⟨e', rel, hrel, hget, -⟩
        rw [hnone rel hrel] at hget
        cases hget

theorem snapshotOrEmpty_of_find (h : fs.find false root = .ok x) (s : Schedule) :
    fs.snapshotOrEmpty s root = fs.snapshot s root := by
  rw [snapshotOrEmpty, h]

theorem agrees_of_find (h : fs.find false root = .ok x) : fs.Agrees s s' root := by
  constructor
  · intro paths hpaths
    rw [snapshotOrEmpty_of_find h]
    exact snapshot_congr hpaths s'
  · intro err q herr hempty _
    rw [snapshotOrEmpty_of_find h] at hempty
    rw [snapshot_congr hempty s] at herr
    cases herr

/-- Where a root is not found as it is written, though something stands at its absolute form, nothing is below
that if the root counts as missing, and it cannot be walked otherwise. -/
def FailsAlike (fs : FileSystem) (root : Path) : Prop :=
  ∀ err base e, fs.find false root = .error err → root.absolute fs.cwd = .ok (Location.path base) →
    fs.entryAt? (Location.path base) = some e →
      if err.isNotFound then ∃ l e', fs.find true (Location.path base) = .ok (l, e') ∧ fs.isOccupied l = false
      else ¬∃ l e', fs.find true (Location.path base) = .ok (l, e') ∧ fs.Open l base

theorem snapshotOrEmpty_of_error (h : fs.find false root = .error err) (s : Schedule) :
    fs.snapshotOrEmpty s root = if err.isNotFound then .ok ∅ else .error err := by
  rw [snapshotOrEmpty, h]
  rfl

theorem Agrees.failsAlike (h : fs.Agrees s s' root) : fs.FailsAlike root := by
  intro err base e hf hroot he
  have htolerant := snapshotOrEmpty_of_error hf s'
  split
  next hmissing =>
    rw [if_pos hmissing] at htolerant
    rw [← snapshot_path_eq_empty_iff (s := s), ← snapshot_of_absolute hroot]
    cases hs : fs.snapshot s root with
    | error err' =>
      rw [h.absent err' _ hs htolerant hroot] at he
      cases he
    | ok paths => rw [← h.listed paths hs, htolerant]
  next hother =>
    rw [if_neg hother] at htolerant
    rintro ⟨l, e', hfind, hopen⟩
    obtain ⟨paths, hpaths⟩ := exists_snapshot (s := s) hfind hopen
    rw [h.listed paths ((snapshot_of_absolute hroot s).trans hpaths)] at htolerant
    cases htolerant

theorem FailsAlike.agrees (h : fs.FailsAlike root) : fs.Agrees s s' root := by
  cases hf : fs.find false root with
  | ok x => exact agrees_of_find hf
  | error err =>
    have htolerant := snapshotOrEmpty_of_error hf s'
    constructor
    · intro paths hpaths
      obtain ⟨base, hroot, hpaths⟩ := exists_absolute_of_snapshot hpaths
      obtain ⟨e, he⟩ := exists_entryAt?_of_snapshot hpaths
      have hcase := h err base e hf hroot he
      split at hcase
      next hmissing =>
        rw [snapshot_path_eq_empty_iff.2 hcase] at hpaths
        rw [htolerant, if_pos hmissing, hpaths]
      next =>
        obtain ⟨l, e', hfind, hopen, -⟩ := snapshot_path_eq_ok_iff.1 hpaths
        exact absurd ⟨l, e', hfind, hopen⟩ hcase
    · intro err' q hfail hempty hroot
      obtain ⟨-, rfl⟩ := Path.absolute_eq_ok_iff.1 hroot
      cases he : fs.entryAt? (Location.path (root.locate fs.cwd)) with
      | none => rfl
      | some e =>
        have hcase := h err _ e hf hroot he
        split at hcase
        next =>
          rw [snapshot_of_absolute hroot, snapshot_path_eq_empty_iff.2 hcase] at hfail
          cases hfail
        next hother =>
          rw [htolerant, if_neg hother] at hempty
          cases hempty

theorem failsAlike_path (fs : FileSystem) (base : Location) : fs.FailsAlike base.path := by
  intro err base' e hf hroot he
  rw [Location.absolute_path] at hroot
  obtain rfl := Location.path_injective (Except.ok.inj hroot)
  cases ha : accept base.path with
  | ok u =>
    obtain ⟨k, hk⟩ := exists_find_iff.2 ⟨ha, he⟩
    rw [hk] at hf
    cases hf
  | error err' =>
    rw [find_path_of_error ha] at hf
    cases hf
    rw [if_neg (by simp [not_isNotFound_of_accept ha]), find_path_of_error ha]
    rintro ⟨l, e', h, -⟩
    cases h

theorem toOption_resolve_segments {segments : List String} (hup : ∀ segment ∈ segments, segment ≠ "..")
    (hlast : ∀ segment, segments.getLast? = some segment → (Name.ofString? segment).isSome) :
    (fs.resolve follow links l (steps ++ segments.map Path.step)).toOption =
      (fs.resolve follow links l (steps ++ (segments.filterMap Name.ofString?).map .down)).toOption := by
  induction segments generalizing steps with
  | nil => rfl
  | cons segment segments ih =>
    obtain ⟨hself, hrest⟩ := List.forall_mem_cons.1 hup
    have hlast' (other : String) (h : segments.getLast? = some other) : (Name.ofString? other).isSome := by
      apply hlast
      rw [List.getLast?_cons, h]
      rfl
    cases hn : Name.ofString? segment with
    | some n =>
      have hstep : Path.step segment = .down n := by simp [Path.step, hself, hn]
      rw [List.map_cons, List.filterMap_cons_some hn, List.map_cons, hstep, List.append_cons, ih hrest hlast',
        ← List.append_cons]
    | none =>
      have hstep : Path.step segment = .here := by simp [Path.step, hself, hn]
      have hne : segments ≠ [] := by
        rintro rfl
        simpa [hn] using hlast segment rfl
      rw [List.map_cons, List.filterMap_cons_none hn, hstep, toOption_resolve_here (by simpa using hne),
        ih hrest hlast']

theorem filterMap_component?_of_plain {segments : List String} (hup : ∀ segment ∈ segments, segment ≠ "..") :
    segments.filterMap Path.component? = (segments.filterMap Name.ofString?).map .name := by
  induction segments with
  | nil => rfl
  | cons segment segments ih =>
    obtain ⟨hself, hrest⟩ := List.forall_mem_cons.1 hup
    cases hn : Name.ofString? segment with
    | none => simp [Path.component?, hself, hn, ih hrest]
    | some n => simp [Path.component?, hself, hn, ih hrest]

theorem locate_of_plain (hup : ∀ segment ∈ root.split.2, segment ≠ "..") (cwd : Location) :
    root.locate cwd = root.start cwd ++ root.split.2.filterMap Name.ofString? := by
  rw [Path.locate_eq_foldl, filterMap_component?_of_plain hup, Location.foldl_step_names]

theorem entryAt?_of_plain (hstart : fs.isDirectoryAt (root.start fs.cwd) = true)
    (hup : ∀ segment ∈ root.segments, segment ≠ "..") (hlast : ∃ n : Name, root.segments.getLast? = some n.text) :
    fs.entryAt? root = fs.entryAt? (Location.path (root.locate fs.cwd)) := by
  have hsegments := root.segments_eq_append
  have hup' : ∀ segment ∈ root.split.2, segment ≠ ".." := by
    intro segment h
    apply hup
    rw [hsegments]
    exact List.mem_append_right _ h
  have hlast' : ∀ segment, root.split.2.getLast? = some segment → (Name.ofString? segment).isSome := by
    intro segment h
    obtain ⟨n, hn⟩ := hlast
    rw [hsegments, List.getLast?_append, h, Option.some_or] at hn
    simp [Option.some.inj hn]
  have hway : (fs.resolve false maxLinks (root.start fs.cwd) ([] ++ root.split.2.map Path.step)).toOption =
      (fs.resolve false maxLinks (root.start fs.cwd)
        ([] ++ (root.split.2.filterMap Name.ofString?).map .down)).toOption := toOption_resolve_segments hup' hlast'
  rw [List.nil_append, List.nil_append] at hway
  have hroot : fs.advance [] ((root.start fs.cwd ++ root.split.2.filterMap Name.ofString?).map .down) =
      fs.advance (root.start fs.cwd) ((root.split.2.filterMap Name.ofString?).map .down) := by
    rw [List.map_append, advance_downs (by simpa using hstart), List.nil_append]
  rw [entryAt?, entryAt?, place?_path, locate_of_plain hup', resolve_congr hroot, ← hway]
  rfl

/-- When a tolerant snapshot agrees with a strict one: always for the absolute form of a path, and for a root
without `..` that ends in a name. Whatever it lists, a strict one lists too. -/
theorem snapshotOrEmpty_agrees_iff (fs : FileSystem) (s s' : Schedule) (root : Path) :
    (fs.Agrees s s' root ↔ fs.FailsAlike root) ∧
    (∀ q, root.absolute fs.cwd = .ok q → fs.Agrees s s' q) ∧
    (accept root = .ok () → fs.isDirectoryAt (root.start fs.cwd) = true →
      (∀ segment ∈ root.segments, segment ≠ "..") → (∃ n : Name, root.segments.getLast? = some n.text) →
      fs.Agrees s s' root) ∧
    ∀ paths, fs.snapshotOrEmpty s' root = .ok paths → paths = ∅ ∨ fs.snapshot s root = .ok paths := by
  refine ⟨⟨Agrees.failsAlike, FailsAlike.agrees⟩, ?_, ?_, ?_⟩
  · intro q hq
    obtain ⟨-, rfl⟩ := Path.absolute_eq_ok_iff.1 hq
    exact (failsAlike_path fs _).agrees
  · intro ha hstart hup hlast
    apply FailsAlike.agrees
    intro err base e hf hroot he
    rw [← (Path.absolute_eq_ok_iff.1 hroot).2, ← entryAt?_of_plain hstart hup hlast] at he
    obtain ⟨k, hk⟩ := exists_find_iff.2 ⟨ha, he⟩
    rw [hk] at hf
    cases hf
  · intro paths h
    cases hf : fs.find false root with
    | ok x => exact .inr (snapshot_congr (snapshotOrEmpty_of_find hf s' ▸ h) s)
    | error err =>
      rw [snapshotOrEmpty_of_error hf] at h
      split at h
      · exact .inl (Except.ok.inj h).symm
      · cases h

namespace Sample

def dist : Location := [⟨"dist", by decide⟩]

def emitted : FileSystem :=
  let fs := (FileSystem.empty.put dist (.directory 0o755)).put (dist ++ [⟨"q.d.ts", by decide⟩])
    (.file "".toUTF8 0o644)
  fs.put [⟨"astray", by decide⟩] (.link "gone")

end Sample

theorem snapshotOrEmpty_agrees_iff_sample :
    Sample.emitted.Agrees .inOrder .inOrder ⟨".//dist"⟩ ∧ Sample.emitted.FailsAlike ⟨".//dist"⟩ ∧
      Path.absolute Sample.emitted.cwd ⟨"missing/../dist"⟩ = .ok (Location.path Sample.dist) ∧
      Sample.emitted.Agrees .inOrder .inOrder (Location.path Sample.dist) ∧
      ∃ paths, Sample.emitted.snapshotOrEmpty .inOrder ⟨".//dist"⟩ = .ok paths ∧ paths.toList ≠ [] ∧
        Sample.emitted.snapshot .inOrder ⟨".//dist"⟩ = .ok paths := by
  have hlisted : ((Sample.emitted.snapshotOrEmpty .inOrder ⟨".//dist"⟩).toOption.map PathSet.toList) =
      some [⟨"/dist/q.d.ts"⟩] := by decide +kernel
  have hroot : Path.absolute Sample.emitted.cwd ⟨"missing/../dist"⟩ = .ok (Location.path Sample.dist) :=
    Results.eq_ok_of_toOption (by decide +kernel)
  obtain ⟨hiff, -, hplain, hsame⟩ := snapshotOrEmpty_agrees_iff Sample.emitted .inOrder .inOrder ⟨".//dist"⟩
  have hagrees := hplain (accept_eq_ok_iff.2 (by decide +kernel)) (by decide +kernel) (by decide +kernel)
    ⟨⟨"dist", by decide⟩, by decide +kernel⟩
  have habsolute := (snapshotOrEmpty_agrees_iff Sample.emitted .inOrder .inOrder ⟨"missing/../dist"⟩).2.1 _ hroot
  obtain ⟨paths, hpaths, htexts⟩ := Option.map_eq_some_iff.1 hlisted
  have hne : paths.toList ≠ [] := by simp [htexts]
  have hok := Results.eq_ok_of_toOption hpaths
  refine ⟨hagrees, hiff.1 hagrees, hroot, habsolute, paths, hok, hne, (hsame paths hok).resolve_left ?_⟩
  rintro rfl
  exact hne rfl

/-- A root that is looked up under a directory that is not there is missing, though its absolute form is not. One
that ends in a slash is missing with what its link leads to, though the link is there. -/
theorem not_forall_snapshotOrEmpty_agrees :
    (¬∀ (fs : FileSystem) (s : Schedule) (root : Path) (paths : PathSet), fs.snapshot s root = .ok paths →
      fs.snapshotOrEmpty s root = .ok paths) ∧
    ¬∀ (fs : FileSystem) (s : Schedule) (root q : Path) (err : IoError), fs.snapshot s root = .error err →
      fs.snapshotOrEmpty s root = .ok ∅ → root.absolute fs.cwd = .ok q → fs.entryAt? q = none := by
  constructor
  · intro h
    have hstrict : (Sample.emitted.snapshot .inOrder ⟨"missing/../dist"⟩).toOption.map PathSet.toList =
        some [⟨"/dist/q.d.ts"⟩] := by decide +kernel
    have htolerant : (Sample.emitted.snapshotOrEmpty .inOrder ⟨"missing/../dist"⟩).toOption.map PathSet.toList =
        some [] := by decide +kernel
    obtain ⟨paths, hpaths, htexts⟩ := Option.map_eq_some_iff.1 hstrict
    rw [h _ _ _ _ (Results.eq_ok_of_toOption hpaths)] at htolerant
    rw [Option.some.inj htolerant] at htexts
    cases htexts
  · intro h
    have hfails : (Sample.emitted.snapshot .inOrder ⟨"astray/"⟩).toOption.isNone = true := by decide +kernel
    have hempty : (Sample.emitted.snapshotOrEmpty .inOrder ⟨"astray/"⟩).toOption.map PathSet.toList = some [] := by
      decide +kernel
    have hroot : Path.absolute Sample.emitted.cwd ⟨"astray/"⟩ = .ok ⟨"/astray"⟩ :=
      Results.eq_ok_of_toOption (by decide +kernel)
    have hthere : Sample.emitted.entryAt? ⟨"/astray"⟩ = some (.link "gone") := by decide +kernel
    obtain ⟨paths, hpaths, htexts⟩ := Option.map_eq_some_iff.1 hempty
    obtain rfl : paths = ∅ := PathSet.ext_mem fun q => by rw [htexts]; rfl
    cases hs : Sample.emitted.snapshot .inOrder ⟨"astray/"⟩ with
    | ok found =>
      rw [hs] at hfails
      cases hfails
    | error err =>
      rw [h _ _ _ _ _ hs (Results.eq_ok_of_toOption hpaths) hroot] at hthere
      cases hthere

end DeclBundle.FileSystem
