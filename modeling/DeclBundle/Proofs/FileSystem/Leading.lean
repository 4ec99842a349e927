import DeclBundle.FileSystem.Write
import DeclBundle.Proofs.FileSystem.Descent
import DeclBundle.Proofs.FileSystem.Transfer

namespace DeclBundle.FileSystem

variable {fs fs' : FileSystem} {d l k : Location} {n : Name} {e : Entry} {mode : Nat}

/-- The path of a place leads to a directory, links followed. -/
def LeadsTo (fs : FileSystem) (l k : Location) : Prop :=
  ∃ mode, fs.resolve true maxLinks [] (l.map .down) = .ok (.present k (.directory mode))

theorem leadsTo_self (h : fs.isDirectoryAt l = true) : fs.LeadsTo l l := by
  obtain ⟨mode, hm⟩ := isDirectoryAt_iff_get?.1 h
  exact ⟨mode, resolve_path hm (.inr rfl)⟩

theorem LeadsTo.unique {j : Location} (h : fs.LeadsTo l k) (h' : fs.LeadsTo l j) : k = j := by
  obtain ⟨_, h⟩ := h
  obtain ⟨_, h'⟩ := h'
  rw [h] at h'
  cases h'
  rfl

theorem LeadsTo.isDirectoryAt (h : fs.LeadsTo l k) : fs.isDirectoryAt k = true := by
  obtain ⟨mode, h⟩ := h
  exact isDirectoryAt_iff_get?.2 ⟨mode, get?_of_resolve h⟩

theorem LeadsTo.mono (h : fs.LeadsTo l k) (htree : ∀ j e, fs.get? j = some e → fs'.get? j = some e) :
    fs'.LeadsTo l k := by
  obtain ⟨mode, h⟩ := h
  exact ⟨mode, resolve_mono htree h⟩

theorem LeadsTo.eq_of_free (h : fs.LeadsTo l k) (hfree : fs.FreeOfLinks l) : k = l := by
  obtain ⟨mode, h⟩ := h
  exact hfree.place_eq h

theorem LeadsTo.exists_parent (h : fs.LeadsTo (d ++ [n]) k) : ∃ j, fs.LeadsTo d j := by
  obtain ⟨mode, h⟩ := h
  rw [List.map_append] at h
  obtain ⟨j, mode', hj⟩ := exists_directory_of_resolve_append (by simp) h
  exact ⟨j, mode', hj⟩

theorem LeadsTo.resolve_append (h : fs.LeadsTo d k) : ∃ left, ∀ follow rel, rel ≠ [] →
    fs.resolve follow maxLinks [] ((d ++ rel).map .down) = fs.resolve follow left k (rel.map .down) := by
  obtain ⟨_, h⟩ := h
  obtain ⟨left, hon⟩ := FileSystem.resolve_append h
  refine ⟨left, ?_⟩
  intro follow rel hrel
  rw [List.map_append, hon follow _ (by simpa using hrel)]

theorem LeadsTo.resolve_append_downs {rel : List Name} (h : fs.LeadsTo d k) (hrel : rel ≠ [])
    (hg : fs.get? (k ++ rel) = some e) {follow : Bool} (he : follow = false ∨ e.isLink = false) :
    fs.resolve follow maxLinks [] ((d ++ rel).map .down) = .ok (.present (k ++ rel) e) := by
  obtain ⟨left, hon⟩ := h.resolve_append
  rw [hon follow rel hrel]
  exact resolve_downs hg (fun _ => h.isDirectoryAt) he

theorem LeadsTo.resolve_concat_of_none (h : fs.LeadsTo d k) (hn : fs.get? (k ++ [n]) = none) (follow : Bool) :
    fs.resolve follow maxLinks [] ((d ++ [n]).map .down) =
      if n.isStorable then .ok (.absent (k ++ [n])) else .error (missing n) := by
  obtain ⟨left, hon⟩ := h.resolve_append
  obtain ⟨mode, hk⟩ := isDirectoryAt_iff_get?.1 h.isDirectoryAt
  have hadv : fs.advance k ([n].map .down) = _ := advance_down n hk
  rw [hon follow [n] (by simp)]
  cases hs : n.isStorable with
  | true =>
    simp only [hn, hs, ↓reduceIte] at hadv ⊢
    exact resolve_of_target hadv
  | false =>
    simp only [hn, hs, Bool.false_eq_true, and_false, ↓reduceIte] at hadv ⊢
    exact resolve_of_failed hadv

theorem LeadsTo.concat (h : fs.LeadsTo d k) (hn : fs.get? (k ++ [n]) = some (.directory mode)) :
    fs.LeadsTo (d ++ [n]) (k ++ [n]) :=
   ⟨mode, h.resolve_append_downs (by simp) hn (.inr rfl)⟩

theorem not_leadsTo_concat (h : fs.LeadsTo d k) (hn : fs.get? (k ++ [n]) = none) {j : Location} :
    ¬fs.LeadsTo (d ++ [n]) j := by
  rintro ⟨mode, hj⟩
  rw [h.resolve_concat_of_none hn] at hj
  split at hj
  · cases hj
  · cases hj

theorem LeadsTo.place?_concat (h : fs.LeadsTo d k) (hn : n.isStorable = true) :
    fs.place? (Location.path (d ++ [n])) = some (k ++ [n]) := by
  rw [place?_path]
  cases hg : fs.get? (k ++ [n]) with
  | none =>
    rw [h.resolve_concat_of_none hg, if_pos hn]
    rfl
  | some e =>
    rw [h.resolve_append_downs (by simp) hg (.inl rfl)]
    rfl

theorem isDirectory_path_iff : fs.isDirectory l.path = true ↔ accept l.path = .ok () ∧ ∃ k, fs.LeadsTo l k := by
  rw [isDirectory]
  constructor
  · intro h
    split at h
    next k mode hf =>
      obtain ⟨ha, hr⟩ := find_path_eq_ok_iff.1 hf
      exact ⟨ha, k, mode, hr⟩
    · cases h
  · rintro ⟨ha, k, mode, hr⟩
    rw [find_path_eq_ok_iff.2 ⟨ha, hr⟩]

theorem LeadsTo.entryAt?_concat (h : fs.LeadsTo d k) (n : Name) :
    fs.entryAt? (Location.path (d ++ [n])) = fs.get? (k ++ [n]) := by
  cases hn : n.isStorable with
  | true => rw [entryAt?, h.place?_concat hn, Option.bind_some]
  | false =>
    have hnone : fs.get? (k ++ [n]) = none := by
      rw [Option.eq_none_iff_forall_ne_some]
      intro e he
      rw [mem_name_of_get? he n (by simp)] at hn
      cases hn
    rw [hnone, entryAt?, place?_path, h.resolve_concat_of_none hnone, if_neg (by simp [hn])]
    rfl

theorem entryAt?_of_not_leadsTo (h : ∀ k, ¬fs.LeadsTo d k) (n : Name) :
    fs.entryAt? (Location.path (d ++ [n])) = none := by
  rw [entryAt?, place?_path, List.map_append]
  cases hr : fs.resolve false maxLinks [] (d.map .down ++ [n].map .down) with
  | error number => rfl
  | ok t =>
    obtain ⟨k, mode, hk⟩ := exists_directory_of_resolve_append (by simp) hr
    exact absurd ⟨mode, hk⟩ (h k)

theorem exists_leadsTo_of_entryAt? (h : fs.entryAt? (Location.path (d ++ [n])) = some e) :
    ∃ k, fs.LeadsTo d k ∧ fs.get? (k ++ [n]) = some e := by
  by_cases hd : ∃ k, fs.LeadsTo d k
  · obtain ⟨k, hk⟩ := hd
    exact ⟨k, hk, by rw [← hk.entryAt?_concat, h]⟩
  · rw [entryAt?_of_not_leadsTo (fun k hk => hd ⟨k, hk⟩)] at h
    cases h

theorem entryAt?_congr (h : ∀ j, fs.get? j = fs'.get? j) (d : Location) (n : Name) :
    fs.entryAt? (Location.path (d ++ [n])) = fs'.entryAt? (Location.path (d ++ [n])) := by
  by_cases hd : ∃ k, fs.LeadsTo d k
  · obtain ⟨k, hk⟩ := hd
    rw [hk.entryAt?_concat, (hk.mono fun j e hj => (h j).symm.trans hj).entryAt?_concat, h]
  · rw [entryAt?_of_not_leadsTo fun k hk => hd ⟨k, hk⟩,
      entryAt?_of_not_leadsTo fun k hk => hd ⟨k, hk.mono fun j e hj => (h j).trans hj⟩]

theorem entrance_path_eq_ok_iff {x : Location × Ending} : fs.entrance (Location.path (d ++ [n])) = .ok x ↔
    accept (Location.path (d ++ [n])) = .ok () ∧ ∃ k, fs.LeadsTo d k ∧ x = (k, .name n false) := by
  rw [entrance, Location.ending_path, Location.start_path]
  cases ha : accept (Location.path (d ++ [n])) with
  | error err => simp
  | ok u =>
    simp only [Results.ok_bind, true_and]
    cases hr : fs.resolve true maxLinks [] (d.map .down ++ [.here]) with
    | error number =>
      have hno : ¬∃ k, fs.LeadsTo d k ∧ x = (k, .name n false) := by
        rintro ⟨k, ⟨mode, hk⟩, -⟩
        rw [resolve_concat_here.2 ⟨k, mode, rfl, hk⟩] at hr
        cases hr
      simp [hno]
    | ok t =>
      obtain ⟨k, mode, rfl, hk⟩ := resolve_concat_here.1 hr
      simp only [Results.mapError_ok, Results.ok_bind, Results.pure_eq_ok, Except.ok.injEq]
      constructor
      · rintro rfl
        exact ⟨k, ⟨mode, hk⟩, rfl⟩
      · rintro ⟨j, hj, rfl⟩
        rw [hj.unique ⟨mode, hk⟩]

end DeclBundle.FileSystem
