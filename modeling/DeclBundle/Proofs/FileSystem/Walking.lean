import DeclBundle.Proofs.FileSystem.Descent
import DeclBundle.Proofs.Path
import DeclBundle.Snapshot

/-!
What a walk lists: everything that stands below the place it begins at, each once, under the path
that its names make below the one the walk is given, in whatever order directories list their names.
It fails exactly if a directory on the way cannot be opened by its path.
-/

namespace DeclBundle.FileSystem

open Pipeline

variable {fs : FileSystem} {s : Schedule} {keep : Name → Bool} {depth : Nat} {l base : Location}
  {found : List (Path × Entry)} {p q : Path} {e : Entry} {n : Name} {rel : List Name}

theorem mem_children_iff {n : Name} : n ∈ fs.children l ↔ ∃ e, fs.get? (l ++ [n]) = some e := by
  rw [children, List.mem_filterMap]
  constructor
  · rintro ⟨⟨k, e⟩, hk, hn⟩
    dsimp only at hn
    split at hn
    · next hd =>
      obtain ⟨front, rfl⟩ := List.getLast?_eq_some_iff.1 hn
      rw [List.dropLast_concat] at hd
      subst hd
      exact ⟨e, (get?_eq_some_iff (by simp)).2 hk⟩
    · cases hn
  · rintro ⟨e, h⟩
    exact ⟨(l ++ [n], e), (get?_eq_some_iff (by simp)).1 h, by simp⟩

theorem le_foldl_max (xs : List Nat) (m : Nat) : m ≤ xs.foldl max m ∧ ∀ x ∈ xs, x ≤ xs.foldl max m := by
  induction xs generalizing m with
  | nil => simp
  | cons x xs ih =>
    obtain ⟨hm, hxs⟩ := ih (max m x)
    rw [List.foldl_cons, List.forall_mem_cons]
    exact ⟨by omega, by omega, hxs⟩

theorem length_le_height (h : fs.get? l = some e) : l.length ≤ fs.height := by
  by_cases hl : l = []
  · simp [hl]
  · have hmem : l.length ∈ fs.table.map (·.1.length) :=
      List.mem_map.2 ⟨_, (get?_eq_some_iff hl).1 h, rfl⟩
    exact (le_foldl_max _ 0).2 _ hmem

def visit (fs : FileSystem) (s : Schedule) (keep : Name → Bool) (depth : Nat) (l : Location) (p : Path)
    (n : Name) : Except IoError (List (Path × Entry)) :=
  match fs.get? (l ++ [n]) with
  | none => return []
  | some e => do
    let path := p.join ⟨n.text⟩
    if !keep n then return []
    else if e.isDirectory then
      (accept path).mapError (.walk path)
      return (path, e) :: (← descend fs s keep depth (l ++ [n]) path)
    else return [(path, e)]

theorem descend_succ (p : Path) : fs.descend s keep (depth + 1) l p =
    ((s.listing (fs.children l)).mapM (visit fs s keep depth l p)).map List.flatten := by
  rw [descend, Results.map_eq_bind]
  rfl

/-- Some names a walk comes to from a place, with what stands there: not too many, and all kept. -/
structure Shown (fs : FileSystem) (keep : Name → Bool) (depth : Nat) (l : Location) (rel : List Name) (e : Entry) :
    Prop where
  below : rel ≠ []
  within : rel.length ≤ depth
  kept : ∀ n ∈ rel, keep n = true
  there : fs.get? (l ++ rel) = some e

theorem not_shown_zero : ¬fs.Shown keep 0 l rel e :=
  fun h => h.below (List.length_eq_zero_iff.1 (Nat.le_zero.1 h.within))

theorem not_shown_of_not_directory (hl : fs.isDirectoryAt l = false) : ¬fs.Shown keep depth l rel e := by
  intro h
  have hget := h.there
  rw [get?_append_eq_none hl h.below] at hget
  cases hget

theorem shown_cons_iff : fs.Shown keep (depth + 1) l (n :: rel) e ↔
    keep n = true ∧ ((rel = [] ∧ fs.get? (l ++ [n]) = some e) ∨ fs.Shown keep depth (l ++ [n]) rel e) := by
  constructor
  · rintro ⟨-, hlen, hkeep, hget⟩
    refine ⟨hkeep n List.mem_cons_self, ?_⟩
    by_cases hr : rel = []
    · subst hr
      exact .inl ⟨rfl, hget⟩
    · rw [List.append_cons] at hget
      exact .inr ⟨hr, by simpa using hlen, fun m hm => hkeep m (List.mem_cons_of_mem _ hm), hget⟩
  · rintro ⟨hn, ⟨rfl, hget⟩ | ⟨-, hlen, hkeep, hget⟩⟩
    · exact ⟨by simp, by simp, by simpa using hn, hget⟩
    · rw [List.append_assoc, List.singleton_append] at hget
      exact ⟨by simp, by simpa using hlen, List.forall_mem_cons.2 ⟨hn, hkeep⟩, hget⟩

theorem Shown.mem_children (h : fs.Shown keep depth l (n :: rel) e) : n ∈ fs.children l := by
  apply mem_children_iff.2
  by_cases hr : rel = []
  · exact ⟨e, hr ▸ h.there⟩
  · have hget := h.there
    rw [List.append_cons] at hget
    obtain ⟨mode, hd⟩ := isDirectoryAt_iff_get?.1 (isDirectoryAt_of_append hget hr)
    exact ⟨_, hd⟩

def Finds (fs : FileSystem) (keep : Name → Bool) (depth : Nat) (l : Location) (p : Path)
    (found : List (Path × Entry)) : Prop :=
  ∀ q e, (q, e) ∈ found ↔ ∃ rel, fs.Shown keep depth l rel e ∧ q = pathBelow p rel

theorem mem_visit {list : List (Path × Entry)}
    (hdescend : ∀ found, fs.descend s keep depth (l ++ [n]) (p.join ⟨n.text⟩) = .ok found →
      fs.Finds keep depth (l ++ [n]) (p.join ⟨n.text⟩) found)
    (h : visit fs s keep depth l p n = .ok list) :
    (q, e) ∈ list ↔ ∃ rel, fs.Shown keep (depth + 1) l (n :: rel) e ∧ q = pathBelow p (n :: rel) := by
  simp only [shown_cons_iff]
  unfold visit at h
  cases hn : fs.get? (l ++ [n]) with
  | none =>
    rw [hn] at h
    cases h
    have hno (rel : List Name) : ¬fs.Shown keep depth (l ++ [n]) rel e :=
      not_shown_of_not_directory (by simp [isDirectoryAt, hn])
    simp [hno]
  | some e' =>
    rw [hn] at h
    cases hk : keep n with
    | false =>
      simp only [hk, Bool.not_false, ↓reduceIte] at h
      cases h
      simp
    | true =>
      have hself : (∃ rel, (rel = [] ∧ some e' = some e) ∧ q = pathBelow p (n :: rel)) ↔
          q = p.join ⟨n.text⟩ ∧ e = e' := by
        constructor
        · rintro ⟨rel, ⟨rfl, he⟩, rfl⟩
          exact ⟨by rw [pathBelow_cons, pathBelow_nil], (Option.some.inj he).symm⟩
        · rintro ⟨rfl, rfl⟩
          exact ⟨[], ⟨rfl, rfl⟩, by rw [pathBelow_cons, pathBelow_nil]⟩
      simp only [true_and, or_and_right, exists_or, hself]
      cases hd : e'.isDirectory with
      | false =>
        simp only [hk, hd, Bool.not_true, Bool.false_eq_true, ↓reduceIte] at h
        cases h
        have hno (rel : List Name) : ¬fs.Shown keep depth (l ++ [n]) rel e :=
          not_shown_of_not_directory (by simp [isDirectoryAt, hn, hd])
        simp [hno]
      | true =>
        simp only [hk, hd, Bool.not_true, Bool.false_eq_true, ↓reduceIte] at h
        obtain ⟨_, -, h⟩ := Results.bind_eq_ok.1 h
        obtain ⟨found, hf, h⟩ := Results.bind_eq_ok.1 h
        cases h
        rw [List.mem_cons, Prod.mk.injEq, hdescend found hf q e]
        simp only [pathBelow_cons]

theorem finds_descend (h : fs.descend s keep depth l p = .ok found) : fs.Finds keep depth l p found := by
  induction depth generalizing l p found with
  | zero =>
    cases h
    intro q e
    simp [not_shown_zero]
  | succ depth ih =>
    intro q e
    rw [descend_succ, Results.map_eq_ok] at h
    obtain ⟨lists, hm, rfl⟩ := h
    rw [List.mem_flatten]
    constructor
    · rintro ⟨list, hl, hmem⟩
      obtain ⟨n, -, hv⟩ := (Results.mem_iff_of_mapM_eq_ok hm).1 hl
      obtain ⟨rel, hshown, hq⟩ := (mem_visit (fun _ => ih) hv).1 hmem
      exact ⟨n :: rel, hshown, hq⟩
    · rintro ⟨rel, hshown, hq⟩
      cases rel with
      | nil => exact absurd rfl hshown.below
      | cons n rel =>
        have hchild : n ∈ s.listing (fs.children l) := (s.listing_perm _).mem_iff.2 hshown.mem_children
        obtain ⟨list, hl, hv⟩ := Results.exists_mem_of_mapM_eq_ok hm hchild
        exact ⟨list, hl, (mem_visit (fun _ => ih) hv).2 ⟨rel, hshown, hq⟩⟩

def Walkable (fs : FileSystem) (keep : Name → Bool) (depth : Nat) (l : Location) (p : Path) : Prop :=
  ∀ rel mode, fs.Shown keep depth l rel (.directory mode) → accept (pathBelow p rel) = .ok ()

theorem walkable_succ_iff : fs.Walkable keep (depth + 1) l p ↔
    ∀ n, keep n = true → fs.isDirectoryAt (l ++ [n]) = true →
      accept (p.join ⟨n.text⟩) = .ok () ∧ fs.Walkable keep depth (l ++ [n]) (p.join ⟨n.text⟩) := by
  constructor
  · intro h n hn hd
    obtain ⟨mode, hd⟩ := isDirectoryAt_iff_get?.1 hd
    constructor
    · have hself := h [n] mode (shown_cons_iff.2 ⟨hn, .inl ⟨rfl, hd⟩⟩)
      rwa [pathBelow_cons, pathBelow_nil] at hself
    · intro rel mode hrel
      rw [← pathBelow_cons]
      exact h (n :: rel) mode (shown_cons_iff.2 ⟨hn, .inr hrel⟩)
  · intro h rel mode hshown
    cases rel with
    | nil => exact absurd rfl hshown.below
    | cons n rel =>
      rw [pathBelow_cons]
      obtain ⟨hn, ⟨rfl, hget⟩ | hrel⟩ := shown_cons_iff.1 hshown
      · rw [pathBelow_nil]
        exact (h n hn (isDirectoryAt_iff_get?.2 ⟨mode, hget⟩)).1
      · exact (h n hn (isDirectoryAt_of_append hrel.there hrel.below)).2 rel mode hrel

theorem walkable_of_not_directory (h : fs.isDirectoryAt l = false) : fs.Walkable keep depth l p :=
  fun _ _ hshown => absurd hshown (not_shown_of_not_directory h)

theorem exists_visit_iff : (∃ list, visit fs s keep depth l p n = .ok list) ↔
    (keep n = true → fs.isDirectoryAt (l ++ [n]) = true → accept (p.join ⟨n.text⟩) = .ok () ∧
      ∃ found, fs.descend s keep depth (l ++ [n]) (p.join ⟨n.text⟩) = .ok found) := by
  unfold visit isDirectoryAt
  cases hn : fs.get? (l ++ [n]) with
  | none => simp
  | some e =>
    cases hk : keep n with
    | false => simp
    | true =>
      cases hd : e.isDirectory with
      | false => simp [hd]
      | true =>
        cases ha : accept (p.join ⟨n.text⟩) with
        | error err => simp [hd, ha]
        | ok u =>
          cases hf : fs.descend s keep depth (l ++ [n]) (p.join ⟨n.text⟩) with
          | error err => simp [hd, ha, hf]
          | ok found => simp [hd, ha, hf]

theorem exists_descend_iff : (∃ found, fs.descend s keep depth l p = .ok found) ↔ fs.Walkable keep depth l p := by
  induction depth generalizing l p with
  | zero =>
    constructor
    · intro _ rel mode hshown
      exact absurd hshown not_shown_zero
    · intro _
      exact ⟨[], rfl⟩
  | succ depth ih =>
    have hmap : (∃ found, fs.descend s keep (depth + 1) l p = .ok found) ↔
        ∃ lists, (s.listing (fs.children l)).mapM (visit fs s keep depth l p) = .ok lists := by
      rw [descend_succ]
      cases (s.listing (fs.children l)).mapM (visit fs s keep depth l p) <;> simp
    rw [hmap, Results.exists_mapM_eq_ok_iff, walkable_succ_iff]
    simp only [exists_visit_iff, ih]
    constructor
    · intro h n hn hd
      obtain ⟨mode, hm⟩ := isDirectoryAt_iff_get?.1 hd
      exact h n ((s.listing_perm _).mem_iff.2 (mem_children_iff.2 ⟨_, hm⟩)) hn hd
    · intro h n _
      exact h n

theorem pairwise_table (fs : FileSystem) : fs.table.Pairwise fun a b => a.1 ≠ b.1 :=
  List.pairwise_map.1 fs.sound.nodup

theorem nodup_children (fs : FileSystem) (l : Location) : (fs.children l).Nodup := by
  rw [children, List.Nodup, List.pairwise_filterMap]
  refine fs.pairwise_table.imp ?_
  rintro ⟨j, _⟩ ⟨k, _⟩ hne m hm n hn rfl
  obtain ⟨rfl, hj⟩ := Option.ite_none_right_eq_some.1 hm
  obtain ⟨hk, hk'⟩ := Option.ite_none_right_eq_some.1 hn
  obtain ⟨front, rfl⟩ := List.getLast?_eq_some_iff.1 hj
  obtain ⟨front', rfl⟩ := List.getLast?_eq_some_iff.1 hk'
  rw [List.dropLast_concat, List.dropLast_concat] at hk
  exact hne (by rw [hk])

theorem nodup_visit {list : List (Path × Entry)}
    (hdescend : ∀ found, fs.descend s keep depth (l ++ [n]) (p.join ⟨n.text⟩) = .ok found →
      (found.map Prod.fst).Nodup)
    (h : visit fs s keep depth l p n = .ok list) : (list.map Prod.fst).Nodup := by
  unfold visit at h
  split at h
  next =>
    cases h
    exact .nil
  next e _ =>
    dsimp only at h
    split at h
    next =>
      cases h
      exact .nil
    next =>
      split at h
      next =>
        obtain ⟨_, -, h⟩ := Results.bind_eq_ok.1 h
        obtain ⟨found, hf, h⟩ := Results.bind_eq_ok.1 h
        cases h
        rw [List.map_cons, List.nodup_cons]
        refine ⟨?_, hdescend found hf⟩
        intro hmem
        obtain ⟨⟨q, e'⟩, hq, heq⟩ := List.mem_map.1 hmem
        obtain ⟨rel, hshown, rfl⟩ := (finds_descend hf q e').1 hq
        dsimp only at heq
        exact pathBelow_ne_self (p.text_join_name_ne_empty n) hshown.below heq
      next =>
        cases h
        exact List.pairwise_singleton _ _

theorem ne_of_visits (hp : p.text ≠ "") {m : Name} {list list' : List (Path × Entry)} (hne : n ≠ m)
    (h : visit fs s keep depth l p n = .ok list) (h' : visit fs s keep depth l p m = .ok list') :
    ∀ q ∈ list.map Prod.fst, ∀ q' ∈ list'.map Prod.fst, q ≠ q' := by
  intro q hq q' hq' heq
  obtain ⟨⟨q, e⟩, hmem, rfl⟩ := List.mem_map.1 hq
  obtain ⟨⟨q', e'⟩, hmem', rfl⟩ := List.mem_map.1 hq'
  obtain ⟨rel, -, rfl⟩ := (mem_visit (fun _ => finds_descend) h).1 hmem
  obtain ⟨rel', -, rfl⟩ := (mem_visit (fun _ => finds_descend) h').1 hmem'
  dsimp only at heq
  exact hne (List.cons.inj (pathBelow_injective hp heq)).1

theorem nodup_descend (hp : p.text ≠ "") (h : fs.descend s keep depth l p = .ok found) :
    (found.map Prod.fst).Nodup := by
  induction depth generalizing l p found with
  | zero =>
    cases h
    exact .nil
  | succ depth ih =>
    rw [descend_succ, Results.map_eq_ok] at h
    obtain ⟨lists, hm, rfl⟩ := h
    have hnames : (s.listing (fs.children l)).Nodup := (s.listing_perm _).nodup_iff.2 (fs.nodup_children l)
    rw [List.map_flatten, List.Nodup, List.pairwise_flatten, List.forall_mem_map, List.pairwise_map]
    constructor
    · intro list hl
      obtain ⟨n, -, hv⟩ := (Results.mem_iff_of_mapM_eq_ok hm).1 hl
      exact nodup_visit (fun _ => ih (p.text_join_name_ne_empty n)) hv
    · have happart : (lists.map (Except.ok (ε := IoError))).Pairwise fun x y => ∀ list list', x = .ok list →
          y = .ok list' → ∀ q ∈ list.map Prod.fst, ∀ q' ∈ list'.map Prod.fst, q ≠ q' := by
        rw [← Results.mapM_eq_ok_iff.1 hm, List.pairwise_map]
        exact hnames.imp fun hne list list' => ne_of_visits hp hne
      exact (List.pairwise_map.1 happart).imp fun h => h _ _ rfl rfl

theorem get?_of_find {follow : Bool} (h : fs.find follow p = .ok (l, e)) : fs.get? l = some e :=
  get?_of_resolve (find_eq_ok_iff.1 h).2

theorem isDirectoryAt_of_find {follow : Bool} (h : fs.find follow p = .ok (l, e)) :
    fs.isDirectoryAt l = e.isDirectory := by
  simp [isDirectoryAt, get?_of_find h]

theorem text_ne_empty_of_find {follow : Bool} (h : fs.find follow p = .ok (l, e)) : p.text ≠ "" :=
  (accept_eq_ok_iff.1 (find_eq_ok_iff.1 h).1).2.1

theorem walk_eq_ok_iff : fs.walk s keep p = .ok found ↔
    ∃ l e, fs.find true p = .ok (l, e) ∧
      (if e.isDirectory then fs.descend s keep fs.height l p else .ok []) = .ok found := by
  rw [walk, Results.bind_eq_ok]
  constructor
  · rintro ⟨⟨l, e⟩, hf, h⟩
    exact ⟨l, e, Results.mapError_eq_ok.1 hf, h⟩
  · rintro ⟨l, e, hf, h⟩
    exact ⟨(l, e), Results.mapError_eq_ok.2 hf, h⟩

theorem exists_walk_iff : (∃ found, fs.walk s keep p = .ok found) ↔
    ∃ l e, fs.find true p = .ok (l, e) ∧ fs.Walkable keep fs.height l p := by
  simp only [walk_eq_ok_iff]
  constructor
  · rintro ⟨found, l, e, hf, hd⟩
    refine ⟨l, e, hf, ?_⟩
    cases he : e.isDirectory with
    | true =>
      rw [if_pos he] at hd
      exact exists_descend_iff.1 ⟨found, hd⟩
    | false => exact walkable_of_not_directory ((isDirectoryAt_of_find hf).trans he)
  · rintro ⟨l, e, hf, hp⟩
    cases he : e.isDirectory with
    | true =>
      obtain ⟨found, hd⟩ := exists_descend_iff.2 hp
      exact ⟨found, l, e, hf, by rwa [if_pos he]⟩
    | false => exact ⟨[], l, e, hf, by simp [he]⟩

theorem finds_walk (h : fs.walk s keep p = .ok found) (hf : fs.find true p = .ok (l, e)) :
    fs.Finds keep fs.height l p found := by
  obtain ⟨l', e', hf', hd⟩ := walk_eq_ok_iff.1 h
  rw [hf] at hf'
  cases hf'
  cases he : e.isDirectory with
  | true =>
    rw [if_pos he] at hd
    exact finds_descend hd
  | false =>
    rw [if_neg (by simp [he])] at hd
    cases hd
    intro q e'
    have hno (rel : List Name) : ¬fs.Shown keep fs.height l rel e' :=
      not_shown_of_not_directory ((isDirectoryAt_of_find hf).trans he)
    simp [hno]

theorem nodup_walk (h : fs.walk s keep p = .ok found) : (found.map Prod.fst).Nodup := by
  obtain ⟨l, e, hf, hd⟩ := walk_eq_ok_iff.1 h
  split at hd
  · exact nodup_descend (text_ne_empty_of_find hf) hd
  · cases hd
    exact .nil

theorem shown_height_iff : fs.Shown keep fs.height l rel e ↔
    rel ≠ [] ∧ (∀ n ∈ rel, keep n = true) ∧ fs.get? (l ++ rel) = some e := by
  constructor
  · rintro ⟨hne, -, hkeep, hget⟩
    exact ⟨hne, hkeep, hget⟩
  · rintro ⟨hne, hkeep, hget⟩
    have hheight := length_le_height hget
    rw [List.length_append] at hheight
    exact ⟨hne, by omega, hkeep, hget⟩

def Below (fs : FileSystem) (l base : Location) (q : Path) (e : Entry) : Prop :=
  ∃ rel, rel ≠ [] ∧ fs.get? (l ++ rel) = some e ∧ q = Location.path (base ++ rel)

def Open (fs : FileSystem) (l base : Location) : Prop :=
  ∀ rel mode, rel ≠ [] → fs.get? (l ++ rel) = some (.directory mode) →
    accept (Location.path (base ++ rel)) = .ok ()

theorem walkable_height_iff : fs.Walkable anyName fs.height l base.path ↔ fs.Open l base := by
  simp only [Walkable, shown_height_iff, pathBelow_path]
  constructor
  · intro h rel mode hne hget
    exact h rel mode ⟨hne, fun _ _ => rfl, hget⟩
  · rintro h rel mode ⟨hne, -, hget⟩
    exact h rel mode hne hget

theorem mem_walk (h : fs.walk s anyName base.path = .ok found) :
    ∃ l e, fs.find true base.path = .ok (l, e) ∧ fs.Open l base ∧
      ∀ q e, (q, e) ∈ found ↔ fs.Below l base q e := by
  obtain ⟨l, e, hf, hopen⟩ := exists_walk_iff.1 ⟨found, h⟩
  refine ⟨l, e, hf, walkable_height_iff.1 hopen, ?_⟩
  intro q e'
  rw [finds_walk h hf q e']
  simp only [shown_height_iff, pathBelow_path]
  constructor
  · rintro ⟨rel, ⟨hne, -, hget⟩, hq⟩
    exact ⟨rel, hne, hget, hq⟩
  · rintro ⟨rel, hne, hget, hq⟩
    exact ⟨rel, ⟨hne, fun _ _ => rfl, hget⟩, hq⟩

theorem exists_walk (hf : fs.find true base.path = .ok (l, e)) (h : fs.Open l base) :
    ∃ found, fs.walk s anyName base.path = .ok found :=
  exists_walk_iff.2 ⟨l, e, hf, walkable_height_iff.2 h⟩

end DeclBundle.FileSystem
