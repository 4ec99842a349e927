import DeclBundle.Proofs.FileSystem.Extent

namespace DeclBundle.FileSystem

variable {fs fs' : FileSystem} {d l k : Location} {n : Name} {e : Entry} {err : IoError} {rel : List Name}

theorem get?_of_erase (h : (fs.erase l).get? k = some e) : fs.get? k = some e := by
  rw [get?_erase] at h
  split at h
  · cases h
  · exact h

theorem get?_of_remove (h : (fs.remove (Location.path (d ++ [n]))).1.get? k = some e) : fs.get? k = some e := by
  rw [remove] at h
  split at h
  next => exact h
  next =>
    dsimp only at h
    split at h
    next hremoved =>
      obtain ⟨j, mode, -, -, rfl⟩ := removeDirectory_eq_ok hremoved
      exact get?_of_clear (get?_of_erase h)
    next => exact get?_of_clear h
  next => exact get?_of_erase h

theorem entryAt?_path_eq_some_iff : fs.entryAt? (Location.path (d ++ [n])) = some e ↔
    ∃ k, fs.LeadsTo d k ∧ fs.get? (k ++ [n]) = some e := by
  constructor
  · exact exists_leadsTo_of_entryAt?
  · rintro ⟨k, hk, hget⟩
    rw [hk.entryAt?_concat, hget]

theorem entryAt?_mono (htree : ∀ k e, fs.get? k = some e → fs'.get? k = some e)
    (h : fs.entryAt? (Location.path (d ++ [n])) = some e) : fs'.entryAt? (Location.path (d ++ [n])) = some e := by
  obtain ⟨k, hk, hget⟩ := entryAt?_path_eq_some_iff.1 h
  exact entryAt?_path_eq_some_iff.2 ⟨k, hk.mono htree, htree _ _ hget⟩

theorem LeadsTo.above (h : fs.LeadsTo (l ++ rel) k) : ∃ j, fs.LeadsTo l j := by
  obtain ⟨mode, h⟩ := h
  by_cases hrel : rel = []
  · subst hrel
    exact ⟨k, mode, by simpa using h⟩
  · rw [List.map_append] at h
    obtain ⟨j, mode', hj⟩ := exists_directory_of_resolve_append (by simpa using hrel) h
    exact ⟨j, mode', hj⟩

theorem exists_entryAt?_of_leadsTo (h : fs.LeadsTo (d ++ [n]) k) :
    ∃ e, fs.entryAt? (Location.path (d ++ [n])) = some e := by
  obtain ⟨mode, h⟩ := h
  obtain ⟨j, e, hj⟩ := exists_resolve_of_follow h
  refine ⟨e, ?_⟩
  rw [entryAt?, place?_path, hj]
  exact get?_of_resolve hj

theorem exists_entryAt?_above (h : fs.entryAt? (Location.path (d ++ [n] ++ rel)) = some e) :
    ∃ e', fs.entryAt? (Location.path (d ++ [n])) = some e' := by
  rcases List.eq_nil_or_concat rel with rfl | ⟨front, m, rfl⟩
  · exact ⟨e, by simpa using h⟩
  · rw [List.concat_eq_append, ← List.append_assoc] at h
    obtain ⟨k, hk, -⟩ := entryAt?_path_eq_some_iff.1 h
    obtain ⟨j, hj⟩ := hk.above
    exact exists_entryAt?_of_leadsTo hj

theorem removeDirectory_ne_notFound (h : fs.entryAt? (Location.path (d ++ [n])) = some e) :
    fs.removeDirectory (Location.path (d ++ [n])) ≠ .error .notFound := by
  obtain ⟨k, ⟨mode, hk⟩, hget⟩ := entryAt?_path_eq_some_iff.1 h
  have hdir : fs.resolve true maxLinks [] (d.map .down ++ [.here]) = .ok (.present k (.directory mode)) :=
    resolve_concat_here.2 ⟨k, mode, rfl, hk⟩
  rw [removeDirectory, Location.ending_path, Location.start_path]
  cases e with
  | directory mode' =>
    simp only [hdir, Results.ok_bind, hget]
    split
    · simpa using show Errno.notEmpty ≠ .notFound by decide
    · simp
  | _ => simpa [hdir, hget] using show Errno.notDirectory ≠ .notFound by decide

theorem isNotFound_of_find (h : fs.find false (Location.path (d ++ [n])) = .error err)
    (he : fs.entryAt? (Location.path (d ++ [n])) = some e) : err.isNotFound = false := by
  cases ha : accept (Location.path (d ++ [n])) with
  | error err' =>
    rw [find_path_of_error ha, Except.error.injEq] at h
    rw [← h]
    exact not_isNotFound_of_accept ha
  | ok =>
    obtain ⟨k, hk, hget⟩ := entryAt?_path_eq_some_iff.1 he
    have hresolve : fs.resolve false maxLinks [] ((d ++ [n]).map .down) = .ok (.present (k ++ [n]) e) :=
      hk.resolve_append_downs (by simp) hget (.inl rfl)
    rw [find_path_eq_ok_iff.2 ⟨ha, hresolve⟩] at h
    cases h

theorem entryAt?_erase (hk : fs.LeadsTo d k) : (fs.erase (k ++ [n])).entryAt? (Location.path (d ++ [n])) = none := by
  rw [Option.eq_none_iff_forall_ne_some]
  intro e he
  obtain ⟨j, hj, hget⟩ := entryAt?_path_eq_some_iff.1 he
  obtain rfl := (hj.mono fun _ _ => get?_of_erase).unique hk
  rw [get?_erase, if_pos ⟨List.prefix_refl _, by simp⟩] at hget
  cases hget

theorem entryAt?_remove (h : (fs.remove (Location.path (d ++ [n]))).2.error? = none) :
    (fs.remove (Location.path (d ++ [n]))).1.entryAt? (Location.path (d ++ [n])) = none := by
  have hplace {l : Location} {e : Entry} (hf : fs.find false (Location.path (d ++ [n])) = .ok (l, e)) :
      ∃ k, fs.LeadsTo d k ∧ l = k ++ [n] := by
    obtain ⟨k, hk, hget⟩ := entryAt?_path_eq_some_iff.1 (entryAt?_of_find hf)
    exact ⟨k, hk, hk.eq_of_find hget hf⟩
  rw [remove] at h ⊢
  split
  next err hf =>
    rw [hf] at h
    rw [Option.eq_none_iff_forall_ne_some]
    intro e he
    simp [isNotFound_of_find hf he, Removal.error?] at h
  next l mode hf =>
    rw [hf] at h
    dsimp only at h ⊢
    split
    next hremoved =>
      obtain ⟨k, mode', hk, -, rfl⟩ := removeDirectory_eq_ok hremoved
      exact entryAt?_erase hk
    next number hremoved =>
      rw [hremoved] at h
      have hnumber : number = .notFound := by
        by_cases hn : number = .notFound
        · exact hn
        · simp [hn, Removal.error?] at h
      rw [Option.eq_none_iff_forall_ne_some]
      intro e he
      exact removeDirectory_ne_notFound he (by rw [hremoved, hnumber])
  next l e _ hf =>
    obtain ⟨k, hk, rfl⟩ := hplace hf
    exact entryAt?_erase hk

end DeclBundle.FileSystem
