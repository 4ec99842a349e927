import DeclBundle.Proofs.FileSystem.Leading
import DeclBundle.Proofs.FileSystem.Removal

namespace DeclBundle.FileSystem

variable {fs fs' : FileSystem} {d l k : Location} {n : Name} {e : Entry} {mode : Nat} {err : IoError}

theorem place?_of_find (h : fs.find false l.path = .ok (k, e)) : fs.place? l.path = some k := by
  rw [place?_path, (find_path_eq_ok_iff.1 h).2]
  rfl

theorem get?_of_clear (h : (fs.clear l).get? k = some e) : fs.get? k = some e := by
  rw [get?_clear] at h
  split at h
  · cases h
  · exact h

theorem LeadsTo.eq_of_find {e' : Entry} (hk : fs.LeadsTo d k) (hget : fs.get? (k ++ [n]) = some e')
    (h : fs.find false (Location.path (d ++ [n])) = .ok (l, e)) : l = k ++ [n] := by
  have hresolve := (find_path_eq_ok_iff.1 h).2
  rw [hk.resolve_append_downs (by simp) hget (.inl rfl)] at hresolve
  cases hresolve
  rfl

theorem removeDirectory_eq_ok (h : fs.removeDirectory (Location.path (d ++ [n])) = .ok fs') :
    ∃ k mode, fs.LeadsTo d k ∧ fs.get? (k ++ [n]) = some (.directory mode) ∧ fs' = fs.erase (k ++ [n]) := by
  rw [removeDirectory, Location.ending_path, Location.start_path] at h
  obtain ⟨t, ht, h⟩ := Results.bind_eq_ok.1 h
  obtain ⟨k, mode, rfl, hk⟩ := resolve_concat_here.1 ht
  dsimp only at h
  cases hn : fs.get? (k ++ [n]) with
  | none => simp [hn] at h
  | some e =>
    cases e with
    | directory mode' =>
      simp only [hn] at h
      split at h
      · cases h
      · exact ⟨k, mode', ⟨mode, hk⟩, hn, (Except.ok.inj h).symm⟩
    | _ => simp [hn] at h

theorem get?_erase_of_not_directory (h : fs.get? l = some e) (he : e.isDirectory = false) (hne : k ≠ l) :
    (fs.erase l).get? k = if k.isBelow l then none else fs.get? k := by
  by_cases hb : k.isBelow l = true
  · obtain ⟨rel, hrel, rfl⟩ := isBelow_iff_append.1 hb
    have hnone : fs.get? (l ++ rel) = none := get?_append_eq_none (by simp [isDirectoryAt, h, he]) hrel
    rw [if_pos hb, get?_erase]
    split
    · rfl
    · exact hnone
  · rw [if_neg hb, get?_erase, if_neg]
    rintro ⟨hl, -⟩
    exact hb (isBelow_iff.2 ⟨hl, hne.symm⟩)

theorem get?_remove_of_ne (h : fs.find false (Location.path (d ++ [n])) = .ok (l, e)) (hne : k ≠ l) :
    (fs.remove (Location.path (d ++ [n]))).1.get? k = if k.isBelow l then none else fs.get? k := by
  have hl := get?_of_resolve (find_path_eq_ok_iff.1 h).2
  rw [remove, h]
  cases e with
  | directory mode =>
    dsimp only
    split
    next fs' hremoved =>
      obtain ⟨j, mode', hj, hget, rfl⟩ := removeDirectory_eq_ok hremoved
      -- the path leads to the same directory while less is there
      obtain rfl := (hj.mono fun _ _ => get?_of_clear).eq_of_find (get?_of_clear hget) h
      rw [get?_erase, get?_clear]
      split
      next hk => rw [if_pos (isBelow_iff.2 ⟨hk.1, hne.symm⟩)]
      next => rfl
    next => exact get?_clear fs l k
  | _ => exact get?_erase_of_not_directory hl rfl hne

theorem remove_of_find_error (h : fs.find false l.path = .error err) : (fs.remove l.path).1 = fs := by
  rw [remove, h]

theorem get?_remove_of_apart (h : ∀ l, fs.place? (Location.path (d ++ [n])) = some l → ¬l <+: k) :
    (fs.remove (Location.path (d ++ [n]))).1.get? k = fs.get? k := by
  cases hf : fs.find false (Location.path (d ++ [n])) with
  | error err => rw [remove_of_find_error hf]
  | ok found =>
    obtain ⟨l, e⟩ := found
    have hl := h l (place?_of_find hf)
    have hne : k ≠ l := by
      rintro rfl
      exact hl (List.prefix_refl _)
    rw [get?_remove_of_ne hf hne, if_neg]
    intro hb
    exact hl (isBelow_iff.1 hb).1

/-- Nothing at another place changes if and only if no directory is removed that holds something. -/
theorem remove_frame_iff : (∀ k, fs.place? (Location.path (d ++ [n])) ≠ some k →
      (fs.remove (Location.path (d ++ [n]))).1.get? k = fs.get? k) ↔
    ∀ l mode, fs.find false (Location.path (d ++ [n])) = .ok (l, .directory mode) → fs.isOccupied l = false := by
  constructor
  · intro h l mode hf
    apply isOccupied_eq_false_iff.2
    intro rel hrel
    have hne : l ++ rel ≠ l := by simpa using hrel
    have hplace : fs.place? (Location.path (d ++ [n])) ≠ some (l ++ rel) := by
      rw [place?_of_find hf]
      exact fun heq => hne (Option.some.inj heq).symm
    rw [← h _ hplace, get?_remove_of_ne hf hne, if_pos (isBelow_iff_append.2 ⟨rel, hrel, rfl⟩)]
  · intro h k hk
    cases hf : fs.find false (Location.path (d ++ [n])) with
    | error err => rw [remove_of_find_error hf]
    | ok found =>
      obtain ⟨l, e⟩ := found
      have hne : k ≠ l := by
        rintro rfl
        exact hk (place?_of_find hf)
      rw [get?_remove_of_ne hf hne]
      split
      next hb =>
        obtain ⟨rel, hrel, rfl⟩ := isBelow_iff_append.1 hb
        cases he : e.isDirectory with
        | true =>
          obtain ⟨mode, rfl⟩ := Entry.isDirectory_iff.1 he
          exact (isOccupied_eq_false_iff.1 (h l mode hf) rel hrel).symm
        | false =>
          have hl := get?_of_resolve (find_path_eq_ok_iff.1 hf).2
          exact (get?_append_eq_none (by simp [isDirectoryAt, hl, he]) hrel).symm
      next => rfl

end DeclBundle.FileSystem
