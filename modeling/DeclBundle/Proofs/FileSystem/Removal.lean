import DeclBundle.Pass.Stage
import DeclBundle.Proofs.FileSystem.Descent

namespace DeclBundle

open FileSystem

namespace FileSystem

variable {fs : FileSystem} {d l k : Location} {n : Name} {e : Entry} {mode : Nat}

def outcome (p : Path) : Removal :=
  match accept p with
  | .ok _ => .removed
  | .error err => .failed err

theorem removeDirectory_path (h : fs.get? (d ++ [n]) = some (.directory mode))
    (hfree : fs.isOccupied (d ++ [n]) = false) :
    fs.removeDirectory (Location.path (d ++ [n])) = .ok (fs.erase (d ++ [n])) := by
  obtain ⟨mode', hd⟩ := get?_dropLast_of_get? h
  have hdir : fs.resolve true maxLinks [] (d.map .down ++ [.here]) = .ok (.present d (.directory mode')) :=
    resolve_concat_here.2 ⟨d, mode', rfl, resolve_path hd (.inr rfl)⟩
  rw [removeDirectory, Location.ending_path, Location.start_path]
  simp [hdir, h, hfree]

theorem removeDirectory_clear (h : fs.get? (d ++ [n]) = some (.directory mode)) :
    (fs.clear (d ++ [n])).removeDirectory (Location.path (d ++ [n])) = .ok ((fs.clear (d ++ [n])).erase (d ++ [n])) := by
  have hself : (fs.clear (d ++ [n])).get? (d ++ [n]) = some (.directory mode) := by
    rw [get?_clear, if_neg (by simp [Location.isBelow]), h]
  have hempty : (fs.clear (d ++ [n])).isOccupied (d ++ [n]) = false := by
    apply isOccupied_eq_false_iff.2
    intro k hk
    rw [get?_clear, if_pos (isBelow_iff_append.2 ⟨k, hk, rfl⟩)]
  exact removeDirectory_path hself hempty

theorem remove_of_accept (ha : accept (Location.path (d ++ [n])) = .ok ()) (h : fs.get? (d ++ [n]) = some e) :
    (fs.remove (Location.path (d ++ [n]))).2 = .removed ∧
      ∀ k, (fs.remove (Location.path (d ++ [n]))).1.get? k = if d ++ [n] <+: k then none else fs.get? k := by
  have herase := fs.get?_erase_of_ne_root (l := d ++ [n]) (by simp)
  rw [remove, find_path ha h (.inl rfl)]
  cases e with
  | directory mode =>
    simp only [removeDirectory_clear h, true_and]
    intro k
    rw [get?_erase_of_ne_root _ (by simp), get?_clear]
    by_cases hk : d ++ [n] <+: k
    · rw [if_pos hk, if_pos hk]
    · rw [if_neg hk, if_neg hk, if_neg fun hbelow => hk (isBelow_iff.1 hbelow).1]
  | _ => exact ⟨rfl, herase⟩

theorem remove_of_error {err : IoError} (ha : accept l.path = .error err) :
    fs.remove l.path = (fs, .failed err) := by
  rw [remove, find_path_of_error ha]
  simp [not_isNotFound_of_accept ha]

theorem remove_path (hl : l ≠ []) (h : fs.get? l = some e) :
    (fs.remove l.path).2 = outcome l.path ∧
      ∀ k, (fs.remove l.path).1.get? k = if l <+: k ∧ outcome l.path = .removed then none else fs.get? k := by
  obtain ⟨d, n, rfl⟩ := (List.eq_nil_or_concat l).resolve_left hl
  rw [List.concat_eq_append] at h ⊢
  cases ha : accept (Location.path (d ++ [n])) with
  | ok u => simpa [outcome, ha] using remove_of_accept ha h
  | error err => simp [outcome, ha, remove_of_error ha]

theorem remove_of_get?_none (hfree : fs.FreeOfLinks l) (h : fs.get? l = none) : (fs.remove l.path).1 = fs := by
  rw [remove]
  split
  next => rfl
  all_goals
    next hf =>
      have hresolve := (find_path_eq_ok_iff.1 hf).2
      rw [← hfree.place_eq hresolve, Target.place, get?_of_resolve hresolve] at h
      cases h

theorem get?_remove_of_free (ha : accept l.path = .ok ()) (hl : l ≠ []) (hfree : fs.FreeOfLinks l) (k : Location) :
    (fs.remove l.path).1.get? k = if l <+: k then none else fs.get? k := by
  cases hget : fs.get? l with
  | some e =>
    have hout : outcome l.path = .removed := by rw [outcome, ha]
    rw [(remove_path hl hget).2, hout]
    simp
  | none =>
    rw [remove_of_get?_none hfree hget]
    split
    next hk => exact get?_below_eq_none hget hk
    next => rfl

end FileSystem

namespace Stage

variable {fs : FileSystem} {places : List Location}

theorem removeAll_paths (hthere : ∀ l ∈ places, l ≠ [] ∧ ∃ e, fs.get? l = some e)
    (hapart : places.Pairwise fun k l => ¬k <+: l) :
    (removeAll (places.map Location.path) fs).2 = places.map (fun l => (l.path, outcome l.path)) ∧
      ∀ k, (removeAll (places.map Location.path) fs).1.get? k =
        if ∃ l ∈ places, l <+: k ∧ outcome l.path = .removed then none else fs.get? k := by
  induction places generalizing fs with
  | nil => simp [removeAll]
  | cons l places ih =>
    obtain ⟨hl, e, he⟩ := hthere l List.mem_cons_self
    obtain ⟨hout, hget⟩ := remove_path hl he
    have hrest : ∀ k ∈ places, k ≠ [] ∧ ∃ e, (fs.remove l.path).1.get? k = some e := by
      intro k hk
      obtain ⟨hne, e', he'⟩ := hthere k (List.mem_cons_of_mem _ hk)
      refine ⟨hne, e', ?_⟩
      rw [hget, if_neg, he']
      exact fun h => (List.pairwise_cons.1 hapart).1 k hk h.1
    obtain ⟨hdone, hafter⟩ := ih hrest hapart.of_cons
    rw [List.map_cons, removeAll]
    refine ⟨by simp [hout, hdone], ?_⟩
    intro k
    rw [hafter, hget]
    by_cases hp : ∃ j ∈ places, j <+: k ∧ outcome j.path = .removed
    · obtain ⟨j, hj, hjk⟩ := hp
      rw [if_pos ⟨j, hj, hjk⟩, if_pos ⟨j, List.mem_cons_of_mem _ hj, hjk⟩]
    · rw [if_neg hp]
      by_cases hlk : l <+: k ∧ outcome l.path = .removed
      · rw [if_pos hlk, if_pos ⟨l, List.mem_cons_self, hlk⟩]
      · rw [if_neg hlk, if_neg]
        rintro ⟨j, hj, hjk⟩
        rcases List.mem_cons.1 hj with rfl | hj
        · exact hlk hjk
        · exact hp ⟨j, hj, hjk⟩

end Stage

end DeclBundle
