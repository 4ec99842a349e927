import DeclBundle.Proofs.FileSystem.Leading
import DeclBundle.Proofs.FileSystem.Walking
import DeclBundle.Proofs.PathSet.Members

namespace DeclBundle.FileSystem

open Pipeline

variable {fs : FileSystem} {s : Schedule} {l base : Location} {found : List (Path × Entry)} {p q : Path}
  {e : Entry} {paths : PathSet}

theorem components_injective_of_below {q' : Path} {e' : Entry} (h : fs.Below l base q e)
    (h' : fs.Below l base q' e') (hc : q.components = q'.components) : q = q' := by
  obtain ⟨rel, -, -, rfl⟩ := h
  obtain ⟨rel', -, -, rfl⟩ := h'
  exact congrArg Location.path (Location.same_path_iff.1 (Path.same_iff.2 hc))

theorem snapshot_of_absolute (h : p.absolute fs.cwd = .ok base.path) (s : Schedule) :
    fs.snapshot s p = fs.snapshot s base.path := by
  rw [snapshot, snapshot, h, Location.absolute_path]

theorem declarations_of_absolute (h : p.absolute fs.cwd = .ok base.path) (s : Schedule) :
    fs.declarations s p = fs.declarations s base.path := by
  rw [declarations, declarations, h, Location.absolute_path]

theorem snapshot_path (fs : FileSystem) (s : Schedule) (base : Location) : fs.snapshot s base.path =
    (fs.walk s anyName base.path).map fun found => PathSet.ofList (found.map Prod.fst) := by
  rw [snapshot, Location.absolute_path, Results.map_eq_bind]
  rfl

theorem declarations_path (fs : FileSystem) (s : Schedule) (base : Location) : fs.declarations s base.path =
    (fs.walk s anyName base.path).map fun found => files found Declaration.isDeclaration := by
  rw [declarations, Location.absolute_path, Results.map_eq_bind]
  rfl

theorem sources_eq (fs : FileSystem) (s : Schedule) (p : Path) :
    fs.sources s p = (fs.walk s isOwn p).map fun found => files found isSource := by
  rw [sources, Results.map_eq_bind]

theorem exists_snapshot (hf : fs.find true base.path = .ok (l, e)) (hopen : fs.Open l base) :
    ∃ paths, fs.snapshot s base.path = .ok paths := by
  rw [snapshot_path, Results.exists_map_eq_ok_iff]
  exact exists_walk hf hopen

theorem exists_declarations (hf : fs.find true base.path = .ok (l, e)) (hopen : fs.Open l base) :
    ∃ list, fs.declarations s base.path = .ok list := by
  rw [declarations_path, Results.exists_map_eq_ok_iff]
  exact exists_walk hf hopen

theorem snapshot_path_eq_ok_iff {paths : PathSet} : fs.snapshot s base.path = .ok paths ↔
    ∃ l e, fs.find true base.path = .ok (l, e) ∧ fs.Open l base ∧
      ∀ q, q ∈ paths.toList ↔ ∃ e, fs.Below l base q e := by
  have hset {found : List (Path × Entry)} {l : Location}
      (hfound : ∀ q e, (q, e) ∈ found ↔ fs.Below l base q e) (q : Path) :
      q ∈ (PathSet.ofList (found.map Prod.fst)).toList ↔ ∃ e, fs.Below l base q e := by
    rw [PathSet.mem_ofList_iff]
    · simp [List.mem_map, hfound]
    · intro p hp q hq h
      obtain ⟨⟨p, e⟩, hpe, rfl⟩ := List.mem_map.1 hp
      obtain ⟨⟨q, e'⟩, hqe, rfl⟩ := List.mem_map.1 hq
      exact components_injective_of_below ((hfound p e).1 hpe) ((hfound q e').1 hqe) h
  rw [snapshot_path]
  constructor
  · intro h
    obtain ⟨found, hw, rfl⟩ := Results.map_eq_ok.1 h
    obtain ⟨l, e, hf, hopen, hfound⟩ := mem_walk hw
    exact ⟨l, e, hf, hopen, hset hfound⟩
  · rintro ⟨l, e, hf, hopen, hpaths⟩
    obtain ⟨found, hw⟩ := exists_walk (s := s) hf hopen
    obtain ⟨l', e', hf', -, hfound⟩ := mem_walk hw
    rw [hf] at hf'
    cases hf'
    refine Results.map_eq_ok.2 ⟨found, hw, ?_⟩
    apply PathSet.ext_mem
    intro q
    rw [hset hfound q, hpaths q]

theorem mem_snapshot_of_find (hf : fs.find true base.path = .ok (l, e))
    (h : fs.snapshot s base.path = .ok paths) (q : Path) : q ∈ paths.toList ↔ ∃ e, fs.Below l base q e := by
  obtain ⟨l', e', hf', -, hmem⟩ := snapshot_path_eq_ok_iff.1 h
  rw [hf] at hf'
  cases hf'
  exact hmem q

theorem mem_snapshot_of_free (h : fs.snapshot s base.path = .ok paths) (hfree : fs.FreeOfLinks base) (l : Location) :
    l.path ∈ paths.toList ↔ l.isBelow base = true ∧ ∃ e, fs.get? l = some e := by
  obtain ⟨k, e, hfind, -, hmem⟩ := snapshot_path_eq_ok_iff.1 h
  have hk : k = base := hfree.place_eq (find_path_eq_ok_iff.1 hfind).2
  subst hk
  rw [hmem]
  constructor
  · rintro ⟨e, rel, hrel, hget, hpath⟩
    obtain rfl := Location.path_injective hpath
    exact ⟨isBelow_iff_append.2 ⟨rel, hrel, rfl⟩, e, hget⟩
  · rintro ⟨hl, e, hget⟩
    obtain ⟨rel, hrel, rfl⟩ := isBelow_iff_append.1 hl
    exact ⟨e, rel, hrel, hget, rfl⟩

theorem mem_snapshotOrEmpty_of_free (h : fs.snapshotOrEmpty s base.path = .ok paths) (hfree : fs.FreeOfLinks base)
    (ha : accept base.path = .ok ()) (l : Location) :
    l.path ∈ paths.toList ↔ l.isBelow base = true ∧ ∃ e, fs.get? l = some e := by
  rw [snapshotOrEmpty] at h
  split at h
  next err herr =>
    split at h
    next =>
      cases h
      refine ⟨fun hl => absurd hl List.not_mem_nil, ?_⟩
      rintro ⟨hl, e, hget⟩
      obtain ⟨rel, hrel, rfl⟩ := isBelow_iff_append.1 hl
      obtain ⟨mode, hm⟩ := isDirectoryAt_iff_get?.1 (isDirectoryAt_of_append hget hrel)
      rw [find_path ha hm (.inl rfl)] at herr
      cases herr
    next => cases h
  next => exact mem_snapshot_of_free h hfree l

theorem mem_map_filter_iff {keep : Path × Entry → Bool} {test : Path → Bool} {P : Path → Entry → Prop}
    (hkeep : ∀ q e, keep (q, e) = (e.isFile && test q)) (hfound : ∀ q e, (q, e) ∈ found ↔ P q e) :
    q ∈ (found.filter keep).map Prod.fst ↔ test q = true ∧ ∃ content mode, P q (.file content mode) := by
  rw [List.mem_map]
  constructor
  · rintro ⟨⟨q, e⟩, hq, rfl⟩
    obtain ⟨hq, htest⟩ := List.mem_filter.1 hq
    rw [hkeep, Bool.and_eq_true] at htest
    cases e with
    | file content mode => exact ⟨htest.2, content, mode, (hfound _ _).1 hq⟩
    | _ => simp [Entry.isFile] at htest
  · rintro ⟨htest, content, mode, hb⟩
    have hkept : keep (q, .file content mode) = true := by simp [hkeep, Entry.isFile, htest]
    exact ⟨(q, _), List.mem_filter.2 ⟨(hfound _ _).2 hb, hkept⟩, rfl⟩

theorem mem_files_iff {test : Path → Bool} {P : Path → Entry → Prop} (hfound : ∀ q e, (q, e) ∈ found ↔ P q e)
    (hspelled : ∀ q e q' e', P q e → P q' e' → q.components = q'.components → q = q') :
    q ∈ files found test ↔ test q = true ∧ ∃ content mode, P q (.file content mode) := by
  rw [files, PathSet.mem_ofList_iff, mem_map_filter_iff (fun _ _ => rfl) hfound]
  intro p hp q hq h
  obtain ⟨_, _, _, hp⟩ := (mem_map_filter_iff (fun _ _ => rfl) hfound).1 hp
  obtain ⟨_, _, _, hq⟩ := (mem_map_filter_iff (fun _ _ => rfl) hfound).1 hq
  exact hspelled p _ q _ hp hq h

theorem mem_declarations {list : List Path} (h : fs.declarations s base.path = .ok list) :
    ∃ l e, fs.find true base.path = .ok (l, e) ∧ (list.Pairwise fun p q => compare p q = .lt) ∧
      ∀ q, q ∈ list ↔ Declaration.isDeclaration q = true ∧
        ∃ content mode, fs.Below l base q (.file content mode) := by
  rw [declarations_path, Results.map_eq_ok] at h
  obtain ⟨found, hw, rfl⟩ := h
  obtain ⟨l, e, hf, -, hfound⟩ := mem_walk hw
  exact ⟨l, e, hf, PathSet.increasing _, fun q => mem_files_iff hfound fun _ _ _ _ => components_injective_of_below⟩

theorem mem_declarations_of_find {list : List Path} (hf : fs.find true base.path = .ok (l, e))
    (h : fs.declarations s base.path = .ok list) (q : Path) :
    q ∈ list ↔ Declaration.isDeclaration q = true ∧ ∃ content mode, fs.Below l base q (.file content mode) := by
  obtain ⟨l', e', hf', -, hmem⟩ := mem_declarations h
  rw [hf] at hf'
  cases hf'
  exact hmem q

theorem sources_eq_ok_iff {list : List Path} : fs.sources s p = .ok list ↔
    ∃ l e, fs.find true p = .ok (l, e) ∧ fs.Walkable isOwn fs.height l p ∧
      (list.Pairwise fun p q => compare p q = .lt) ∧
      ∀ q, q ∈ list ↔ isSource q = true ∧
        ∃ content mode rel, fs.Shown isOwn fs.height l rel (.file content mode) ∧ q = pathBelow p rel := by
  have hmem {found : List (Path × Entry)} {l : Location} {e : Entry} (hw : fs.walk s isOwn p = .ok found)
      (hf : fs.find true p = .ok (l, e)) (q : Path) : q ∈ files found isSource ↔ isSource q = true ∧
        ∃ content mode rel, fs.Shown isOwn fs.height l rel (.file content mode) ∧ q = pathBelow p rel := by
    apply mem_files_iff (finds_walk hw hf)
    rintro _ _ _ _ ⟨rel, -, rfl⟩ ⟨rel', -, rfl⟩ hc
    rw [eq_of_components_pathBelow (text_ne_empty_of_find hf) hc]
  rw [sources_eq, Results.map_eq_ok]
  constructor
  · rintro ⟨found, hw, rfl⟩
    obtain ⟨l, e, hf, hp⟩ := exists_walk_iff.1 ⟨found, hw⟩
    exact ⟨l, e, hf, hp, PathSet.increasing _, hmem hw hf⟩
  · rintro ⟨l, e, hf, hp, hlist, hq⟩
    obtain ⟨found, hw⟩ := exists_walk_iff.2 ⟨l, e, hf, hp⟩
    have hset : PathSet.ofList _ = ⟨list, hlist⟩ :=
      PathSet.ext_mem fun q => (hmem hw hf q).trans (hq q).symm
    exact ⟨found, hw, congrArg PathSet.toList hset⟩

structure Closed (base : Location) (paths : PathSet) : Prop where
  below : ∀ q ∈ paths.toList, ∃ rel, rel ≠ [] ∧ q = Location.path (base ++ rel)
  closed : ∀ rel more, rel ≠ [] → Location.path (base ++ (rel ++ more)) ∈ paths.toList →
    Location.path (base ++ rel) ∈ paths.toList

theorem Closed.contains_iff (h : Closed base paths) (k : Location) :
    paths.contains k.path = true ↔ k.path ∈ paths.toList := by
  constructor
  · intro hc
    obtain ⟨q, hq, he⟩ := PathSet.contains_iff.1 hc
    obtain ⟨rel, -, rfl⟩ := h.below q hq
    rwa [Location.same_path_iff.1 (Path.same_iff.2 he)]
  · exact PathSet.contains_of_mem

theorem Closed.mem_above {j k : Location} (h : Closed base paths) (hj : j.isBelow base = true) (hjk : j <+: k)
    (hk : k.path ∈ paths.toList) : j.path ∈ paths.toList := by
  obtain ⟨rel, hrel, rfl⟩ := isBelow_iff_append.1 hj
  obtain ⟨more, rfl⟩ := hjk
  rw [List.append_assoc] at hk
  exact h.closed rel more hrel hk

theorem closed_of_snapshot (h : fs.snapshot s base.path = .ok paths) : Closed base paths := by
  obtain ⟨l, e, -, -, hmem⟩ := snapshot_path_eq_ok_iff.1 h
  constructor
  · intro q hq
    obtain ⟨_, rel, hrel, -, rfl⟩ := (hmem q).1 hq
    exact ⟨rel, hrel, rfl⟩
  · intro rel more hrel hq
    obtain ⟨e', rel', -, hget, hpath⟩ := (hmem _).1 hq
    obtain rfl := List.append_cancel_left (Location.path_injective hpath)
    by_cases hmore : more = []
    · rwa [hmore, List.append_nil] at hq
    · rw [← List.append_assoc] at hget
      obtain ⟨mode, hm⟩ := isDirectoryAt_iff_get?.1 (isDirectoryAt_of_append hget hmore)
      exact (hmem _).2 ⟨_, rel, hrel, hm, rfl⟩

theorem closed_of_snapshotOrEmpty (h : fs.snapshotOrEmpty s base.path = .ok paths) : Closed base paths := by
  rw [snapshotOrEmpty] at h
  split at h
  · split at h
    · cases h
      exact ⟨fun _ hq => absurd hq List.not_mem_nil, fun _ _ _ hq => absurd hq List.not_mem_nil⟩
    · cases h
  · exact closed_of_snapshot h

theorem contains_of_snapshot (h : fs.snapshot s base.path = .ok paths) (n : Name) :
    paths.contains (Location.path (base ++ [n])) = (fs.entryAt? (Location.path (base ++ [n]))).isSome := by
  have hclosed := closed_of_snapshot h
  obtain ⟨l, e, hfind, -, hmem⟩ := snapshot_path_eq_ok_iff.1 h
  obtain ⟨-, hresolve⟩ := find_path_eq_ok_iff.1 hfind
  have hentry : fs.entryAt? (Location.path (base ++ [n])) = fs.get? (l ++ [n]) := by
    cases he : e.isDirectory with
    | true =>
      obtain ⟨mode, rfl⟩ := Entry.isDirectory_iff.1 he
      exact LeadsTo.entryAt?_concat ⟨mode, hresolve⟩ n
    | false =>
      have hnot (k : Location) : ¬fs.LeadsTo base k := by
        rintro ⟨mode, hk⟩
        rw [hresolve] at hk
        cases hk
        cases he
      rw [entryAt?_of_not_leadsTo hnot,
        get?_append_eq_none (by simp [isDirectoryAt, get?_of_resolve hresolve, he]) (by simp)]
  rw [hentry, Bool.eq_iff_iff, hclosed.contains_iff, hmem, Option.isSome_iff_exists]
  constructor
  · rintro ⟨e', rel, -, hget, hpath⟩
    obtain rfl := List.append_cancel_left (Location.path_injective hpath)
    exact ⟨e', hget⟩
  · rintro ⟨e', hget⟩
    exact ⟨e', [n], by simp, hget, rfl⟩

theorem contains_of_snapshotOrEmpty (h : fs.snapshotOrEmpty s base.path = .ok paths) (n : Name) :
    paths.contains (Location.path (base ++ [n])) = (fs.entryAt? (Location.path (base ++ [n]))).isSome := by
  rw [snapshotOrEmpty] at h
  split at h
  next err herr =>
    split at h
    next hnot =>
      cases h
      have hno (k : Location) : ¬fs.LeadsTo base k := by
        rintro ⟨mode, hk⟩
        cases ha : accept base.path with
        | error err' =>
          rw [find_path_of_error ha] at herr
          cases herr
          simp [not_isNotFound_of_accept ha] at hnot
        | ok u =>
          obtain ⟨j, e, hj⟩ := exists_resolve_of_follow hk
          rw [find_path_eq_ok_iff.2 ⟨ha, hj⟩] at herr
          cases herr
      rw [entryAt?_of_not_leadsTo hno]
      rfl
    next => cases h
  next => exact contains_of_snapshot h n

end DeclBundle.FileSystem
