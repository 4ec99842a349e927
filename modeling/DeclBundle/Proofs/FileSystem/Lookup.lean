import DeclBundle.FileSystem.Basic

namespace DeclBundle

theorem Entry.isDirectory_iff {e : Entry} : e.isDirectory = true ↔ ∃ mode, e = .directory mode := by
  cases e <;> simp [Entry.isDirectory]

namespace FileSystem

variable {fs : FileSystem} {l k : Location} {e : Entry}

@[simp] theorem get?_root (fs : FileSystem) : fs.get? [] = some rootEntry := by
  simp [get?]

theorem Takes.ne_root (h : fs.Takes l e) : l ≠ [] := by
  obtain ⟨n, hn, _⟩ := h.named
  rintro rfl
  simp at hn

theorem isBelow_iff_append : l.isBelow k = true ↔ ∃ rel, rel ≠ [] ∧ l = k ++ rel := by
  rw [isBelow_iff]
  constructor
  · rintro ⟨⟨rel, rfl⟩, hne⟩
    refine ⟨rel, ?_, rfl⟩
    rintro rfl
    simp at hne
  · rintro ⟨rel, hrel, rfl⟩
    exact ⟨List.prefix_append _ _, by simpa using hrel⟩

theorem ne_root_of_isBelow (h : l.isBelow k = true) : l ≠ [] := by
  rintro rfl
  simp [Location.isBelow] at h

theorem isBelow_of_above {j : Location} (hk : k.isBelow l = true) (h : k <+: j) : j.isBelow l = true := by
  obtain ⟨rel, hrel, rfl⟩ := isBelow_iff_append.1 hk
  obtain ⟨rest, rfl⟩ := h
  exact isBelow_iff_append.2 ⟨rel ++ rest, by simp [hrel], List.append_assoc _ _ _⟩

@[simp] theorem put_cwd (fs : FileSystem) (l : Location) (e : Entry) : (fs.put l e).cwd = fs.cwd := by
  rw [put]
  split <;> rfl

@[simp] theorem erase_cwd (fs : FileSystem) (l : Location) : (fs.erase l).cwd = fs.cwd := rfl

theorem get?_put (h : fs.Takes l e) (k : Location) :
    (fs.put l e).get? k = if k = l then some e else fs.get? k := by
  by_cases hk : k = []
  · subst hk
    rw [if_neg h.ne_root.symm, get?_root, get?_root]
  · apply Option.ext
    intro e'
    rw [get?_eq_some_iff hk, put, dif_pos h]
    by_cases hkl : k = l
    · subst hkl
      simp [eq_comm]
    · rw [if_neg hkl, get?_eq_some_iff hk]
      simp [hkl]

theorem get?_put_of_ne (fs : FileSystem) (e : Entry) (h : k ≠ l) : (fs.put l e).get? k = fs.get? k := by
  by_cases ht : fs.Takes l e
  · rw [get?_put ht, if_neg h]
  · rw [put, dif_neg ht]

theorem get?_put_of_get? {e' : Entry} (hl : fs.get? l = none) (e : Entry) (h : fs.get? k = some e') :
    (fs.put l e).get? k = some e' := by
  rw [get?_put_of_ne, h]
  rintro rfl
  rw [hl] at h
  cases h

theorem get?_erase (fs : FileSystem) (l k : Location) :
    (fs.erase l).get? k = if l <+: k ∧ k ≠ [] then none else fs.get? k := by
  by_cases hk : k = []
  · simp [hk]
  · apply Option.ext
    intro e
    rw [get?_eq_some_iff hk, erase]
    by_cases hl : l <+: k
    · simp [hl, hk]
    · have hb : l.isPrefixOf k = false := by rwa [Bool.eq_false_iff, ne_eq, List.isPrefixOf_iff_prefix]
      rw [if_neg (by simp [hl]), get?_eq_some_iff hk]
      simp [hb]

theorem get?_erase_of_ne_root (fs : FileSystem) (hl : l ≠ []) (k : Location) :
    (fs.erase l).get? k = if l <+: k then none else fs.get? k := by
  rw [get?_erase]
  by_cases hk : l <+: k
  · rw [if_pos hk, if_pos]
    refine ⟨hk, ?_⟩
    rintro rfl
    exact hl (List.prefix_nil.1 hk)
  · rw [if_neg hk, if_neg fun h => hk h.1]

theorem get?_clear (fs : FileSystem) (l k : Location) :
    (fs.clear l).get? k = if k.isBelow l then none else fs.get? k := by
  by_cases hk : k = []
  · simp [hk, Location.isBelow]
  · apply Option.ext
    intro e
    rw [get?_eq_some_iff hk, clear]
    by_cases hl : k.isBelow l
    · simp [hl]
    · rw [if_neg hl, get?_eq_some_iff hk]
      simp [hl]

theorem isDirectoryAt_iff_get? : fs.isDirectoryAt l = true ↔ ∃ mode, fs.get? l = some (.directory mode) := by
  rw [isDirectoryAt, Option.any_eq_true]
  constructor
  · rintro ⟨e, he, hd⟩
    obtain ⟨mode, rfl⟩ := Entry.isDirectory_iff.1 hd
    exact ⟨mode, he⟩
  · rintro ⟨mode, h⟩
    exact ⟨_, h, rfl⟩

theorem isDirectoryAt_congr {fs' : FileSystem} (h : fs.get? l = fs'.get? l) :
    fs.isDirectoryAt l = fs'.isDirectoryAt l := by
  rw [isDirectoryAt, isDirectoryAt, h]

theorem isDirectoryAt_dropLast (h : fs.get? l = some e) : fs.isDirectoryAt l.dropLast = true := by
  rw [isDirectoryAt_iff]
  by_cases hl : l = []
  · simp [hl]
  · exact fs.sound.closed l e ((get?_eq_some_iff hl).1 h)

theorem isDirectoryAt_of_append (h : fs.get? (l ++ k) = some e) (hk : k ≠ []) :
    fs.isDirectoryAt l = true := by
  induction hn : k.length generalizing k e with
  | zero => exact absurd (List.length_eq_zero_iff.1 hn) hk
  | succ m ih =>
    obtain ⟨j, n, rfl⟩ := (List.eq_nil_or_concat k).resolve_left hk
    rw [List.concat_eq_append] at h hn
    have hd := isDirectoryAt_dropLast h
    rw [← List.append_assoc, List.dropLast_concat] at hd
    by_cases hj : j = []
    · simpa [hj] using hd
    · obtain ⟨mode, hm⟩ := isDirectoryAt_iff_get?.1 hd
      exact ih hm hj (by simpa using hn)

theorem isDirectoryAt_above (h : fs.isDirectoryAt l = true) (hk : k <+: l) : fs.isDirectoryAt k = true := by
  obtain ⟨rest, rfl⟩ := hk
  by_cases hr : rest = []
  · simpa [hr] using h
  · obtain ⟨mode, hm⟩ := isDirectoryAt_iff_get?.1 h
    exact isDirectoryAt_of_append hm hr

theorem get?_append_eq_none (h : fs.isDirectoryAt l = false) (hk : k ≠ []) : fs.get? (l ++ k) = none := by
  rw [Option.eq_none_iff_forall_ne_some]
  intro e he
  rw [isDirectoryAt_of_append he hk] at h
  cases h

theorem get?_below_eq_none (h : fs.get? l = none) (hk : l <+: k) : fs.get? k = none := by
  obtain ⟨rest, rfl⟩ := hk
  by_cases hr : rest = []
  · rw [hr, List.append_nil, h]
  · exact get?_append_eq_none (by simp [isDirectoryAt, h]) hr

theorem get?_ne_link (h : (fs.table.all fun p => !p.2.isLink) = true) (l : Location) (text : String) :
    fs.get? l ≠ some (.link text) := by
  intro hget
  by_cases hl : l = []
  · rw [hl, get?_root] at hget
    cases hget
  · have hentry := List.all_eq_true.1 h _ ((get?_eq_some_iff hl).1 hget)
    cases hentry

theorem isOccupied_iff : fs.isOccupied l = true ↔ ∃ k e, k ≠ [] ∧ fs.get? (l ++ k) = some e := by
  rw [isOccupied, List.any_eq_true]
  constructor
  · rintro ⟨⟨j, e⟩, hj, hb⟩
    obtain ⟨k, hk, rfl⟩ := isBelow_iff_append.1 hb
    exact ⟨k, e, hk, (get?_eq_some_iff (by simp [hk])).2 hj⟩
  · rintro ⟨k, e, hk, h⟩
    refine ⟨(l ++ k, e), (get?_eq_some_iff (by simp [hk])).1 h, ?_⟩
    exact isBelow_iff_append.2 ⟨k, hk, rfl⟩

theorem isOccupied_eq_false_iff : fs.isOccupied l = false ↔ ∀ k, k ≠ [] → fs.get? (l ++ k) = none := by
  rw [Bool.eq_false_iff, ne_eq, isOccupied_iff]
  constructor
  · intro h k hk
    rw [Option.eq_none_iff_forall_ne_some]
    intro e he
    exact h ⟨k, e, hk, he⟩
  · rintro h ⟨k, e, hk, he⟩
    rw [h k hk] at he
    cases he

theorem takes_concat {d : Location} {n : Name} (e : Entry) (hd : fs.isDirectoryAt d = true)
    (hn : n.isStorable = true) (hfree : fs.isDirectoryAt (d ++ [n]) = false) : fs.Takes (d ++ [n]) e where
  inside := by rwa [List.dropLast_concat]
  named := ⟨n, by simp, hn⟩
  roomy := .inr (isOccupied_eq_false_iff.2 fun _ hk => get?_append_eq_none hfree hk)

theorem get?_dropLast_of_get? {d : Location} {n : Name} (h : fs.get? (d ++ [n]) = some e) :
    ∃ mode, fs.get? d = some (.directory mode) := by
  have hd := isDirectoryAt_dropLast h
  rw [List.dropLast_concat] at hd
  exact isDirectoryAt_iff_get?.1 hd

end FileSystem

end DeclBundle
