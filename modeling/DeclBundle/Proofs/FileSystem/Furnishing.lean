import DeclBundle.Proofs.FileSystem.Obstacle

namespace DeclBundle.FileSystem

variable {fs : FileSystem} {base d l k : Location} {rel : List Name} {n : Name}

theorem makeDirectory_of_obstacle (ha : accept (Location.path (d ++ [n])) = .ok ()) (hfree : fs.FreeOfLinks d)
    (hd : fs.isDirectoryAt d = false) :
    fs.makeDirectory (Location.path (d ++ [n])) = .error (.os (fs.obstacle [] d)) := by
  rw [makeDirectory, entrance, ha, Location.ending_path, Location.start_path]
  simp [resolve_obstacle hd hfree]

theorem makeDirectory_of_error {err : IoError} (ha : accept l.path = .error err) :
    fs.makeDirectory l.path = .error err := by
  rw [makeDirectory, entrance, ha]
  rfl

theorem makeDirectoriesUpTo_of_missing {fuel : Nat}
    (h : fs.makeDirectory (Location.path (d ++ [n])) = .error (.os .notFound)) :
    makeDirectoriesUpTo (fuel + 1) (Location.path (d ++ [n])) fs =
      match makeDirectoriesUpTo fuel d.path fs with
      | (mid, .ok ()) => mid.settle (Location.path (d ++ [n]))
      | failed => failed := by
  rw [makeDirectoriesUpTo, if_neg (by simp [Location.components_path]), h, Location.parent_path]
  rfl

theorem makeDirectoriesUpTo_of_ne {fuel : Nat} (h : fs.makeDirectory l.path ≠ .error (.os .notFound)) :
    makeDirectoriesUpTo (fuel + 1) l.path fs = fs.settle l.path := by
  rw [makeDirectoriesUpTo, if_neg (by simp [Location.components_path])]
  split
  next hm _ => exact absurd hm h
  next => rfl

def ensure (fs : FileSystem) (l : Location) : FileSystem :=
  if (fs.get? l).isSome then fs else fs.put l (.directory directoryMode)

def furnish (fs : FileSystem) (base : Location) : List Name → FileSystem
  | [] => fs
  | n :: rest => furnish (fs.ensure (base ++ [n])) (base ++ [n]) rest

theorem furnish_concat (rel : List Name) (n : Name) :
    fs.furnish base (rel ++ [n]) = (fs.furnish base rel).ensure (base ++ rel ++ [n]) := by
  induction rel generalizing fs base with
  | nil => simp [furnish]
  | cons m rel ih => simp [furnish, ih]

theorem ensure_of_isDirectoryAt (h : fs.isDirectoryAt l = true) : fs.ensure l = fs := by
  obtain ⟨mode, hm⟩ := isDirectoryAt_iff_get?.1 h
  simp [ensure, hm]

theorem furnish_of_isDirectoryAt (h : fs.isDirectoryAt (base ++ rel) = true) : fs.furnish base rel = fs := by
  induction rel generalizing base with
  | nil => rfl
  | cons n rel ih =>
    rw [List.append_cons] at h
    rw [furnish, ensure_of_isDirectoryAt (isDirectoryAt_above h (List.prefix_append _ _)), ih h]

theorem get?_ensure (hbase : fs.isDirectoryAt base = true) (hn : n.isStorable = true) (k : Location) :
    (fs.ensure (base ++ [n])).get? k =
      if k = base ++ [n] ∧ fs.get? k = none then some (.directory directoryMode) else fs.get? k := by
  rw [ensure]
  cases hget : fs.get? (base ++ [n]) with
  | some e =>
    rw [Option.isSome_some, if_pos rfl, if_neg]
    rintro ⟨rfl, hnone⟩
    simp [hnone] at hget
  | none =>
    have htakes : fs.Takes (base ++ [n]) (.directory directoryMode) :=
      takes_concat _ hbase hn (by simp [isDirectoryAt, hget])
    rw [Option.isSome_none, if_neg (by simp), get?_put htakes]
    by_cases hk : k = base ++ [n]
    · simp [hk, hget]
    · simp [hk]

theorem Enterable.ensure (h : fs.Enterable k) (hbase : fs.isDirectoryAt base = true) (hn : n.isStorable = true) :
    (fs.ensure (base ++ [n])).Enterable k := by
  rw [Enterable, isDirectoryAt, get?_ensure hbase hn]
  split
  · exact .inr rfl
  · exact h

theorem Enterable.isDirectoryAt_ensure (h : fs.Enterable (base ++ [n])) (hbase : fs.isDirectoryAt base = true)
    (hn : n.isStorable = true) : (fs.ensure (base ++ [n])).isDirectoryAt (base ++ [n]) = true := by
  rw [isDirectoryAt, get?_ensure hbase hn]
  rcases h with hnone | hd
  · simp [hnone, Entry.isDirectory]
  · obtain ⟨mode, hm⟩ := isDirectoryAt_iff_get?.1 hd
    simp [hm, Entry.isDirectory]

structure Furnishable (fs : FileSystem) (base : Location) (rel : List Name) : Prop where
  inside : fs.isDirectoryAt base = true
  enterable : ∀ k, k <+: rel → fs.Enterable (base ++ k)
  storable : ∀ n ∈ rel, n.isStorable = true

theorem Furnishable.storable_head (h : fs.Furnishable base (n :: rel)) : n.isStorable = true :=
  h.storable n List.mem_cons_self

theorem Furnishable.tail (h : fs.Furnishable base (n :: rel)) :
    (fs.ensure (base ++ [n])).Furnishable (base ++ [n]) rel where
  inside := (h.enterable [n] (by simp)).isDirectoryAt_ensure h.inside h.storable_head
  enterable k hk := by
    rw [List.append_assoc, List.singleton_append]
    exact (h.enterable (n :: k) (by simpa using hk)).ensure h.inside h.storable_head
  storable m hm := h.storable m (List.mem_cons_of_mem _ hm)

theorem Furnishable.above {more : List Name} (h : fs.Furnishable base (rel ++ more)) : fs.Furnishable base rel where
  inside := h.inside
  enterable k hk := h.enterable k (hk.trans (List.prefix_append _ _))
  storable n hn := h.storable n (List.mem_append_left _ hn)

theorem Furnishable.isDirectoryAt (h : fs.Furnishable base rel) : (fs.furnish base rel).isDirectoryAt (base ++ rel) = true := by
  induction rel generalizing fs base with
  | nil =>
    rw [List.append_nil]
    exact h.inside
  | cons n rel ih =>
    rw [furnish, List.append_cons base n rel]
    exact ih h.tail

theorem Furnishable.enterable_furnish (h : fs.Furnishable base rel) (hk : fs.Enterable k) :
    (fs.furnish base rel).Enterable k := by
  induction rel generalizing fs base with
  | nil => exact hk
  | cons n rel ih => exact ih h.tail (hk.ensure h.inside h.storable_head)

theorem settle_of_enterable (ha : accept (Location.path (d ++ [n])) = .ok ()) (hd : fs.isDirectoryAt d = true)
    (hn : n.isStorable = true) (h : fs.Enterable (d ++ [n])) :
    fs.settle (Location.path (d ++ [n])) = (fs.ensure (d ++ [n]), .ok ()) := by
  rw [settle, makeDirectory_path ha (leadsTo_self hd), ensure]
  rcases h with hnone | hthere
  · simp [hn, hnone]
  · obtain ⟨mode, hm⟩ := isDirectoryAt_iff_get?.1 hthere
    simp [hn, hm, isDirectory_path_iff.2 ⟨ha, _, leadsTo_self hthere⟩]

theorem Furnishable.makeDirectoriesUpTo {fuel : Nat} (h : fs.Furnishable [] l) (ha : accept l.path = .ok ())
    (hfuel : l.length < fuel) : makeDirectoriesUpTo fuel l.path fs = (fs.furnish [] l, .ok ()) := by
  induction fuel generalizing l with
  | zero => omega
  | succ fuel ih =>
    rcases List.eq_nil_or_concat l with rfl | ⟨d, n, rfl⟩
    · rw [makeDirectoriesUpTo_of_ne (by simp [makeDirectory_root, Errno.alreadyExists, Errno.notFound]), settle,
        makeDirectory_root, furnish]
      simp [isDirectory_path_iff.2 ⟨ha, _, leadsTo_self h.inside⟩]
    · rw [List.concat_eq_append] at *
      have hn := h.storable n (by simp)
      have hlast : fs.Enterable (d ++ [n]) := h.enterable _ (List.prefix_refl _)
      rw [furnish_concat, List.nil_append]
      cases hd : fs.isDirectoryAt d with
      | true =>
        have hm : fs.makeDirectory (Location.path (d ++ [n])) ≠ .error (.os .notFound) := by
          rw [makeDirectory_path ha (leadsTo_self hd), if_neg (by simp [hn])]
          split <;> simp [Errno.alreadyExists, Errno.notFound]
        rw [makeDirectoriesUpTo_of_ne hm, settle_of_enterable ha hd hn hlast, furnish_of_isDirectoryAt (by simpa using hd)]
      | false =>
        have hfree : fs.FreeOfLinks d := fun k hk text => (h.above.enterable k hk).ne_link text
        have hm : fs.makeDirectory (Location.path (d ++ [n])) = .error (.os .notFound) := by
          rw [makeDirectory_of_obstacle ha hfree hd, obstacle_of_enterable h.above.enterable h.above.storable]
        have hlength : d.length < fuel := by
          rw [List.length_append, List.length_singleton] at hfuel
          omega
        rw [makeDirectoriesUpTo_of_missing hm, ih h.above (accept_path_above ha (List.prefix_append d [n])) hlength]
        exact settle_of_enterable ha h.above.isDirectoryAt hn (h.above.enterable_furnish hlast)

theorem length_lt_fuel (l : Location) : l.length < l.path.components.length + 1 := by
  simp only [Location.components_path, List.length_cons, List.length_map]
  omega

theorem Furnishable.makeDirectories (h : fs.Furnishable [] l) (ha : accept l.path = .ok ()) :
    fs.makeDirectories l.path = (fs.furnish [] l, .ok ()) :=
  h.makeDirectoriesUpTo ha (length_lt_fuel l)

theorem makeDirectories_of_error {err : IoError} (ha : accept l.path = .error err) :
    fs.makeDirectories l.path = (fs, .error err) := by
  have hm : fs.makeDirectory l.path ≠ .error (.os .notFound) := by
    rw [makeDirectory_of_error ha]
    intro heq
    cases heq
    have hnot := not_isNotFound_of_accept ha
    cases hnot
  have hno : fs.isDirectory l.path = false := by
    rw [Bool.eq_false_iff, ne_eq, isDirectory_path_iff, ha]
    rintro ⟨⟨⟩, -⟩
  rw [FileSystem.makeDirectories, makeDirectoriesUpTo_of_ne hm, settle, makeDirectory_of_error ha, hno]
  rfl

theorem makeDirectories_of_not_enterable (ha : accept l.path = .ok ()) (hfree : fs.FreeOfLinks l) (hk : k <+: l)
    (h : ¬fs.Enterable k) : fs.makeDirectories l.path =
      (fs, .error (.os (if (fs.get? l).isSome then .alreadyExists else .notDirectory))) := by
  have hroot : fs.isDirectoryAt [] = true := isDirectoryAt_iff_get?.2 ⟨_, get?_root fs⟩
  have hnot : fs.isDirectoryAt l = false := by
    rw [Bool.eq_false_iff]
    intro hl
    exact h (.inr (isDirectoryAt_above hl hk))
  have hno : fs.isDirectory l.path = false := by
    rw [Bool.eq_false_iff, ne_eq, isDirectory_path_iff]
    rintro ⟨-, j, hj⟩
    obtain rfl := hj.eq_of_free hfree
    rw [hj.isDirectoryAt] at hnot
    cases hnot
  have hfails (err : Errno) (hm : fs.makeDirectory l.path = .error (.os err)) (hne : err ≠ .notFound) :
      fs.makeDirectories l.path = (fs, .error (.os err)) := by
    rw [FileSystem.makeDirectories, makeDirectoriesUpTo_of_ne (by simp [hm, hne]), settle, hm, hno]
    rfl
  rcases List.eq_nil_or_concat l with rfl | ⟨d, n, rfl⟩
  · rw [hroot] at hnot
    cases hnot
  · rw [List.concat_eq_append] at *
    cases hd : fs.isDirectoryAt d with
    | true =>
      have hlast : k = d ++ [n] := by
        rcases List.prefix_concat_iff.1 hk with hk | hk
        · exact hk
        · exact absurd (.inr (isDirectoryAt_above hd hk)) h
      subst hlast
      obtain ⟨e, he⟩ : ∃ e, fs.get? (d ++ [n]) = some e := by
        rw [← Option.ne_none_iff_exists']
        exact fun hnone => h (.inl hnone)
      rw [he, Option.isSome_some, if_pos rfl]
      apply hfails _ _ (by simp [Errno.alreadyExists, Errno.notFound])
      rw [makeDirectory_path ha (leadsTo_self hd)]
      simp [mem_name_of_get? he n (by simp), he]
    | false =>
      have hnone : fs.get? (d ++ [n]) = none := get?_append_eq_none hd (by simp)
      have hk' : k <+: d := by
        rcases List.prefix_concat_iff.1 hk with rfl | hk
        · exact absurd (.inl hnone) h
        · exact hk
      rw [hnone, Option.isSome_none, if_neg (by simp)]
      apply hfails _ _ (by simp [Errno.notDirectory, Errno.notFound])
      rw [makeDirectory_of_obstacle ha (hfree.above (List.prefix_append _ _)) hd, obstacle_of_not_enterable hk' h hroot]

end DeclBundle.FileSystem
