import DeclBundle.Proofs.FileSystem.Leading

/-!
Making a directory and those above it. Nothing that is there changes; what is added are directories
at the places of the paths on the way, and the last of them, if it is new, is empty.
-/

namespace DeclBundle.FileSystem

variable {fs fs' mid : FileSystem} {d l k : Location} {n : Name} {e : Entry} {mode : Nat}
  {r : Except IoError Unit}

theorem makeDirectory_root (fs : FileSystem) : fs.makeDirectory (Location.path []) = .error (.os .alreadyExists) := by
  have hr : fs.resolve true maxLinks [] [] = .ok (.present [] rootEntry) :=
    resolve_of_target (advance_nil (get?_root fs))
  have ha : accept (Location.path []) = .ok () := by
    apply accept_eq_ok_iff.2
    decide +kernel
  rw [makeDirectory, entrance, Location.ending_root, Location.start_path, ha]
  simp [hr]

theorem makeDirectory_path (ha : accept (Location.path (d ++ [n])) = .ok ()) (h : fs.LeadsTo d k) :
    fs.makeDirectory (Location.path (d ++ [n])) =
      if !n.isStorable then .error (.os .nameTooLong)
      else if (fs.get? (k ++ [n])).isSome then .error (.os .alreadyExists)
      else .ok (fs.put (k ++ [n]) (.directory directoryMode)) := by
  rw [makeDirectory, entrance_path_eq_ok_iff.2 ⟨ha, k, h, rfl⟩]
  rfl

theorem leadsTo_of_makeDirectory (h : fs.makeDirectory (Location.path (d ++ [n])) = .ok fs') :
    accept (Location.path (d ++ [n])) = .ok () ∧ ∃ k, fs.LeadsTo d k := by
  rw [makeDirectory, Results.bind_eq_ok] at h
  obtain ⟨x, he, -⟩ := h
  obtain ⟨ha, k, hk, -⟩ := entrance_path_eq_ok_iff.1 he
  exact ⟨ha, k, hk⟩

theorem LeadsTo.takes_concat (h : fs.LeadsTo d k) (hn : n.isStorable = true) (hfree : fs.get? (k ++ [n]) = none)
    (e : Entry) : fs.Takes (k ++ [n]) e :=
  FileSystem.takes_concat e h.isDirectoryAt hn (by simp [FileSystem.isDirectoryAt, hfree])

theorem LeadsTo.concat_put (h : fs.LeadsTo d k) (hn : n.isStorable = true) (hfree : fs.get? (k ++ [n]) = none) :
    (fs.put (k ++ [n]) (.directory directoryMode)).LeadsTo (d ++ [n]) (k ++ [n]) := by
  have hd : (fs.put (k ++ [n]) (.directory directoryMode)).LeadsTo d k :=
    h.mono fun _ _ hj => get?_put_of_get? hfree _ hj
  apply hd.concat
  rw [get?_put (h.takes_concat hn hfree _), if_pos rfl]

/-- A tree with directories added, each where a path on the way to a place leads. -/
structure Grown (fs fs' : FileSystem) (l : Location) : Prop where
  kept : ∀ k e, fs.get? k = some e → fs'.get? k = some e
  made : ∀ k e, fs'.get? k = some e → fs.get? k = none →
    e = .directory directoryMode ∧ ∃ j, j <+: l ∧ fs'.LeadsTo j k

theorem Grown.refl (fs : FileSystem) (l : Location) : Grown fs fs l where
  kept _ _ h := h
  made k e h hn := by
    rw [h] at hn
    cases hn

theorem Grown.below (h : Grown fs fs' d) (hd : d <+: l) : Grown fs fs' l where
  kept := h.kept
  made k e hk hn := by
    obtain ⟨he, j, hj, hlead⟩ := h.made k e hk hn
    exact ⟨he, j, hj.trans hd, hlead⟩

theorem Grown.freeOfLinks {j : Location} (h : Grown fs fs' l) (hfree : fs.FreeOfLinks j) : fs'.FreeOfLinks j := by
  intro k hk text hg
  cases hf : fs.get? k with
  | none => cases (h.made k _ hg hf).1
  | some e =>
    rw [h.kept k e hf] at hg
    rw [Option.some.inj hg] at hf
    exact hfree k hk text hf

theorem Grown.congr (h : Grown fs mid l) (htree : ∀ k, fs'.get? k = mid.get? k) : Grown fs fs' l where
  kept k e hk := (htree k).trans (h.kept k e hk)
  made k e hk hn := by
    obtain ⟨he, j, hj, hlead⟩ := h.made k e ((htree k).symm.trans hk) hn
    exact ⟨he, j, hj, hlead.mono fun i e hi => (htree i).trans hi⟩

theorem Grown.concat (h : Grown fs mid d) (hk : mid.LeadsTo d k) (hn : n.isStorable = true)
    (hfree : mid.get? (k ++ [n]) = none) :
    Grown fs (mid.put (k ++ [n]) (.directory directoryMode)) (d ++ [n]) := by
  have htakes := hk.takes_concat hn hfree (.directory directoryMode)
  constructor
  · intro j e hj
    exact get?_put_of_get? hfree _ (h.kept j e hj)
  · intro j e hj hnone
    rw [get?_put htakes] at hj
    split at hj
    · next heq =>
      subst heq
      exact ⟨(Option.some.inj hj).symm, d ++ [n], List.prefix_refl _, hk.concat_put hn hfree⟩
    · obtain ⟨he, i, hi, hlead⟩ := h.made j e hj hnone
      refine ⟨he, i, hi.trans (List.prefix_append _ _), ?_⟩
      exact hlead.mono fun _ _ hj => get?_put_of_get? hfree _ hj

/-- How making a directory comes out: it is there, and if anything was made it is new and empty; or
the path still leads to none. -/
def Settled (fs fs' : FileSystem) (l : Location) : Except IoError Unit → Prop
  | .ok _ => accept l.path = .ok () ∧
      ∃ k, fs'.LeadsTo l k ∧ (fs' = fs ∨ fs.get? k = none ∧ fs'.isOccupied k = false)
  | .error _ => fs' = fs ∨ ∀ k, ¬fs'.LeadsTo l k

theorem Settled.isDirectoryAt {u : Unit} (h : Settled fs fs' l (.ok u)) (hg : Grown fs fs' l)
    (hfree : fs.FreeOfLinks l) : fs'.isDirectoryAt l = true := by
  obtain ⟨-, k, hk, -⟩ := h
  obtain rfl := hk.eq_of_free (hg.freeOfLinks hfree)
  exact hk.isDirectoryAt

theorem Settled.entryAt?_eq (h : Settled fs fs' d r) (hg : Grown fs fs' d) (n : Name) :
    fs'.entryAt? (Location.path (d ++ [n])) = fs.entryAt? (Location.path (d ++ [n])) := by
  have hsame : fs' = fs ∨ fs'.entryAt? (Location.path (d ++ [n])) = none ∧ ∀ k, ¬fs.LeadsTo d k := by
    cases r with
    | error err =>
      rcases h with rfl | hno
      · exact .inl rfl
      · refine .inr ⟨entryAt?_of_not_leadsTo hno n, ?_⟩
        intro k hk
        exact hno k (hk.mono hg.kept)
    | ok u =>
      obtain ⟨-, k, hk, rfl | ⟨hnone, hfree⟩⟩ := h
      · exact .inl rfl
      · refine .inr ⟨?_, ?_⟩
        · rw [hk.entryAt?_concat]
          exact isOccupied_eq_false_iff.1 hfree [n] (by simp)
        · intro j hj
          obtain rfl := (hj.mono hg.kept).unique hk
          simpa [FileSystem.isDirectoryAt, hnone] using hj.isDirectoryAt
  rcases hsame with rfl | ⟨hnone, hno⟩
  · rfl
  · rw [hnone, entryAt?_of_not_leadsTo hno]

theorem settled_put (hk : mid.LeadsTo d k) (ha : accept (Location.path (d ++ [n])) = .ok ())
    (hn : n.isStorable = true) (hfree : mid.get? (k ++ [n]) = none) (hnone : fs.get? (k ++ [n]) = none) :
    Settled fs (mid.put (k ++ [n]) (.directory directoryMode)) (d ++ [n]) (.ok ()) := by
  refine ⟨ha, k ++ [n], hk.concat_put hn hfree, .inr ⟨hnone, ?_⟩⟩
  apply isOccupied_eq_false_iff.2
  intro j hj
  rw [get?_put (hk.takes_concat hn hfree _), if_neg (by simp [hj])]
  exact get?_append_eq_none (by simp [FileSystem.isDirectoryAt, hfree]) hj

theorem settle_of_error {err : IoError} (h : fs.makeDirectory l.path = .error err) :
    (fs.settle l.path).1 = fs ∧ Settled fs fs l (fs.settle l.path).2 := by
  rw [settle, h]
  refine ⟨rfl, ?_⟩
  dsimp only
  split
  next hd =>
    obtain ⟨ha, k, hk⟩ := isDirectory_path_iff.1 hd
    exact ⟨ha, k, hk, .inl rfl⟩
  next => exact .inl rfl

theorem Grown.makeDirectory (h : Grown fs mid d) (hm : mid.makeDirectory (Location.path (d ++ [n])) = .ok fs') :
    Grown fs fs' (d ++ [n]) ∧ Settled fs fs' (d ++ [n]) (.ok ()) := by
  obtain ⟨ha, k, hk⟩ := leadsTo_of_makeDirectory hm
  rw [makeDirectory_path ha hk] at hm
  split at hm
  · cases hm
  · next hn =>
    have hn : n.isStorable = true := by simpa using hn
    split at hm
    · cases hm
    · next hfree =>
      have hfree : mid.get? (k ++ [n]) = none := by simpa using hfree
      have hnone : fs.get? (k ++ [n]) = none := by
        rw [Option.eq_none_iff_forall_ne_some]
        intro e he
        rw [h.kept _ e he] at hfree
        cases hfree
      cases hm
      exact ⟨h.concat hk hn hfree, settled_put hk ha hn hfree hnone⟩

theorem Settled.concat (h : Settled fs mid d (.ok ())) (hg : Grown fs mid d) :
    Grown fs (mid.settle (Location.path (d ++ [n]))).1 (d ++ [n]) ∧
      Settled fs (mid.settle (Location.path (d ++ [n]))).1 (d ++ [n]) (mid.settle (Location.path (d ++ [n]))).2 := by
  cases hm : mid.makeDirectory (Location.path (d ++ [n])) with
  | ok made =>
    rw [settle, hm]
    exact hg.makeDirectory hm
  | error err =>
    obtain ⟨hmid, hs⟩ := settle_of_error hm
    rw [hmid]
    refine ⟨hg.below (List.prefix_append _ _), ?_⟩
    obtain ⟨-, k, hk, rfl | ⟨-, hfree⟩⟩ := h
    · exact hs
    · have hnone : mid.get? (k ++ [n]) = none := isOccupied_eq_false_iff.1 hfree [n] (by simp)
      cases hr : (mid.settle (Location.path (d ++ [n]))).2 with
      | ok u =>
        rw [hr] at hs
        obtain ⟨-, j, hj, -⟩ := hs
        exact absurd hj (not_leadsTo_concat hk hnone)
      | error err => exact .inr fun j => not_leadsTo_concat hk hnone

theorem makeDirectoriesUpTo_path {fuel : Nat} (hfuel : l.length < fuel) (fs : FileSystem) :
    Grown fs (makeDirectoriesUpTo fuel l.path fs).1 l ∧
      Settled fs (makeDirectoriesUpTo fuel l.path fs).1 l (makeDirectoriesUpTo fuel l.path fs).2 := by
  induction fuel generalizing l fs with
  | zero => omega
  | succ fuel ih =>
    have hcomp : l.path.components ≠ [] := by simp [Location.components_path]
    rw [makeDirectoriesUpTo, if_neg hcomp]
    rcases List.eq_nil_or_concat l with rfl | ⟨d, n, rfl⟩
    · obtain ⟨hfs, hs⟩ := settle_of_error (makeDirectory_root fs)
      rw [makeDirectory_root, Location.parent_root]
      change Grown fs (fs.settle (Location.path [])).1 [] ∧
        Settled fs (fs.settle (Location.path [])).1 [] (fs.settle (Location.path [])).2
      rw [hfs]
      exact ⟨Grown.refl fs _, hs⟩
    · rw [List.concat_eq_append] at hfuel ⊢
      have hlength : d.length < fuel := by
        rw [List.length_append, List.length_singleton] at hfuel
        omega
      rw [Location.parent_path]
      split
      next parent hm hp =>
        cases hp
        obtain ⟨hg, hs⟩ := ih hlength fs
        cases hmid : makeDirectoriesUpTo fuel (Location.path d) fs with
        | mk mid r =>
          rw [hmid] at hg hs
          cases r with
          | ok u => exact hs.concat hg
          | error err =>
            refine ⟨hg.below (List.prefix_append _ _), ?_⟩
            rcases hs with rfl | hno
            · exact .inl rfl
            · apply Or.inr
              intro k hk
              obtain ⟨j, hj⟩ := hk.exists_parent
              exact hno j hj
      next =>
        cases hm : fs.makeDirectory (Location.path (d ++ [n])) with
        | ok made =>
          rw [settle, hm]
          exact (Grown.refl fs d).makeDirectory hm
        | error err =>
          obtain ⟨hfs, hs⟩ := settle_of_error hm
          rw [hfs]
          exact ⟨Grown.refl fs _, hs⟩

theorem makeDirectories_path (fs : FileSystem) (l : Location) :
    Grown fs (fs.makeDirectories l.path).1 l ∧
      Settled fs (fs.makeDirectories l.path).1 l (fs.makeDirectories l.path).2 := by
  apply makeDirectoriesUpTo_path
  simp only [Location.components_path, List.length_cons, List.length_map]
  omega

end DeclBundle.FileSystem
