import DeclBundle.Pass.Stage
import DeclBundle.Proofs.FileSystem.Outline
import DeclBundle.Proofs.FileSystem.Snapshots

/-!
What succeeds in a tree that fits into another: all that it holds is there of the same kind, so that
whatever the other tree holds can be made in it again.
-/

namespace DeclBundle

namespace FileSystem

variable {fs goal mid : FileSystem} {d l k base : Location} {n : Name} {e e' : Entry} {content : ByteArray}
  {mode : Nat} {follow : Bool} {links : Nat} {rest : List Step} {s : Schedule}

/-- Whatever the tree holds is of the same kind in the other. -/
def Fits (fs goal : FileSystem) : Prop :=
  ∀ k e, fs.get? k = some e → ∃ e', goal.get? k = some e' ∧ e'.isDirectory = e.isDirectory ∧ e'.isFile = e.isFile

theorem fits_of_outline (h : ∀ k, fs.outline k = none ∨ fs.outline k = goal.outline k) : fs.Fits goal := by
  intro k e hk
  rcases h k with hnone | heq
  · rw [outline_eq_none_iff.1 hnone] at hk
    cases hk
  · rw [outline, outline, hk] at heq
    cases hg : goal.get? k with
    | none => simp [hg] at heq
    | some e' =>
      refine ⟨e', rfl, ?_⟩
      rw [hg] at heq
      cases e <;> cases e' <;> simp_all [Entry.bare, Entry.isDirectory, Entry.isFile]

theorem Fits.trans (h : fs.Fits mid) (h' : mid.Fits goal) : fs.Fits goal := by
  intro k e hk
  obtain ⟨e', hm, hd, hfile⟩ := h k e hk
  obtain ⟨e'', hg, hd', hfile'⟩ := h' k e' hm
  exact ⟨e'', hg, hd'.trans hd, hfile'.trans hfile⟩

theorem Fits.put (h : fs.Fits goal) (hl : goal.get? l = some e') (hd : e'.isDirectory = e.isDirectory)
    (hfile : e'.isFile = e.isFile) : (fs.put l e).Fits goal := by
  intro k found hk
  by_cases hkl : k = l
  · subst hkl
    by_cases ht : fs.Takes k e
    · rw [get?_put ht, if_pos rfl] at hk
      cases hk
      exact ⟨e', hl, hd, hfile⟩
    · rw [FileSystem.put, dif_neg ht] at hk
      exact h k found hk
  · rw [get?_put_of_ne fs e hkl] at hk
    exact h k found hk

theorem Fits.isDirectoryAt (h : fs.Fits goal) (hk : fs.isDirectoryAt k = true) : goal.isDirectoryAt k = true := by
  obtain ⟨mode, hm⟩ := isDirectoryAt_iff_get?.1 hk
  obtain ⟨e', he', hd, -⟩ := h k _ hm
  obtain ⟨mode', rfl⟩ := Entry.isDirectory_iff.1 hd
  exact isDirectoryAt_iff_get?.2 ⟨mode', he'⟩

theorem Fits.none_or_directory (h : fs.Fits goal) (hgoal : goal.isDirectoryAt l = true) :
    fs.get? l = none ∨ fs.isDirectoryAt l = true := by
  cases hl : fs.get? l with
  | none => exact .inl rfl
  | some e =>
    obtain ⟨e', he', hd, -⟩ := h l e hl
    rw [FileSystem.isDirectoryAt, he', Option.any_some, hd] at hgoal
    exact .inr (by simp [FileSystem.isDirectoryAt, hl, hgoal])

theorem Fits.none_or_file (h : fs.Fits goal) (hgoal : goal.get? l = some (.file content mode)) :
    fs.get? l = none ∨ ∃ content' mode', fs.get? l = some (.file content' mode') := by
  cases hl : fs.get? l with
  | none => exact .inl rfl
  | some e =>
    obtain ⟨e', he', -, hfile⟩ := h l e hl
    rw [hgoal] at he'
    cases he'
    cases e with
    | file content' mode' => exact .inr ⟨content', mode', rfl⟩
    | _ => cases hfile

theorem Fits.grown (h : fs.Fits goal) (hgoal : goal.isDirectoryAt l = true) (hg : Grown fs mid l)
    (hfree : mid.FreeOfLinks l) : mid.Fits goal := by
  intro k e hk
  cases hf : fs.get? k with
  | some e' =>
    rw [hg.kept k e' hf] at hk
    cases hk
    exact h k e hf
  | none =>
    obtain ⟨rfl, j, hj, hlead⟩ := hg.made k e hk hf
    obtain rfl := hlead.eq_of_free (hfree.above hj)
    obtain ⟨mode, hm⟩ := isDirectoryAt_iff_get?.1 (isDirectoryAt_above hgoal hj)
    exact ⟨_, hm, rfl, rfl⟩

theorem Fits.freeOfLinks (h : fs.Fits goal) (hgoal : goal.isDirectoryAt l = true) : fs.FreeOfLinks l := by
  intro k hk text hg
  rcases h.none_or_directory (isDirectoryAt_above hgoal hk) with hnone | hd
  · rw [hnone] at hg
    cases hg
  · simp [FileSystem.isDirectoryAt, hg, Entry.isDirectory] at hd

theorem isStorable_of_isDirectoryAt (h : fs.isDirectoryAt l = true) (hn : n ∈ l) : n.isStorable = true := by
  obtain ⟨mode, hm⟩ := isDirectoryAt_iff_get?.1 h
  exact mem_name_of_get? hm n hn

theorem Fits.advance_missing {rel : List Name} (h : fs.Fits goal) (hgoal : goal.isDirectoryAt (l ++ rel) = true)
    (hl : fs.isDirectoryAt l = true) (hnone : fs.get? (l ++ rel) = none) (hrest : rest ≠ []) :
    fs.advance l (rel.map .down ++ rest) = .failed .notFound := by
  induction rel generalizing l with
  | nil => simp [FileSystem.isDirectoryAt, show fs.get? l = none by simpa using hnone] at hl
  | cons n rel ih =>
    have hstorable := isStorable_of_isDirectoryAt hgoal (n := n) (by simp)
    obtain ⟨mode, hm⟩ := isDirectoryAt_iff_get?.1 hl
    rw [List.append_cons] at hgoal hnone
    rw [List.map_cons, List.cons_append, advance_down n hm]
    rcases h.none_or_directory (isDirectoryAt_above hgoal (List.prefix_append _ _)) with hn | hn
    · simp [hn, hrest, missing, hstorable]
    · have hrel := ih hgoal hn hnone
      obtain ⟨mode', hm'⟩ := isDirectoryAt_iff_get?.1 hn
      rw [hm']
      exact hrel

theorem Fits.resolve_missing (h : fs.Fits goal) (hgoal : goal.isDirectoryAt l = true) (hnone : fs.get? l = none)
    (hrest : rest ≠ []) : fs.resolve follow links [] (l.map .down ++ rest) = .error .notFound := by
  have hroot : fs.isDirectoryAt [] = true := isDirectoryAt_iff_get?.2 ⟨_, get?_root fs⟩
  exact resolve_of_failed (h.advance_missing (l := []) hgoal hroot hnone hrest)

theorem Fits.find_missing (h : fs.Fits goal) (hgoal : goal.isDirectoryAt l = true) (ha : accept l.path = .ok ())
    (hnone : fs.get? l = none) : fs.find follow l.path = .error (.os .notFound) := by
  rcases List.eq_nil_or_concat l with rfl | ⟨d, n, rfl⟩
  · rw [get?_root] at hnone
    cases hnone
  · rw [List.concat_eq_append] at *
    have hstorable := isStorable_of_isDirectoryAt hgoal (n := n) (by simp)
    rw [find, locate, ha, Location.start_path, resolve_steps_path, Results.ok_bind]
    rcases h.none_or_directory (isDirectoryAt_above hgoal (List.prefix_append d [n])) with hd | hd
    · rw [List.map_append, h.resolve_missing (isDirectoryAt_above hgoal (List.prefix_append d [n])) hd (by simp)]
      rfl
    · obtain ⟨mode, hm⟩ := isDirectoryAt_iff_get?.1 hd
      have hlead : fs.LeadsTo d d := ⟨mode, resolve_path hm (.inr rfl)⟩
      rw [hlead.resolve_concat_of_none hnone, if_pos hstorable]
      rfl

theorem Fits.makeDirectory_missing (h : fs.Fits goal) (hgoal : goal.isDirectoryAt d = true)
    (ha : accept (Location.path (d ++ [n])) = .ok ()) (hnone : fs.get? d = none) :
    fs.makeDirectory (Location.path (d ++ [n])) = .error (.os .notFound) := by
  rw [makeDirectory, entrance, ha, Location.ending_path, Location.start_path]
  simp [h.resolve_missing hgoal hnone]

theorem Fits.settle (h : fs.Fits goal) (hgoal : goal.isDirectoryAt (d ++ [n]) = true)
    (ha : accept (Location.path (d ++ [n])) = .ok ()) (hd : fs.isDirectoryAt d = true) :
    (fs.settle (Location.path (d ++ [n]))).2 = .ok () := by
  have hstorable := isStorable_of_isDirectoryAt hgoal (n := n) (by simp)
  rw [FileSystem.settle, makeDirectory_path ha (leadsTo_self hd)]
  rcases h.none_or_directory hgoal with hnone | hthere
  · simp [hstorable, hnone]
  · have hsome : (fs.get? (d ++ [n])).isSome = true := by
      obtain ⟨mode, hm⟩ := isDirectoryAt_iff_get?.1 hthere
      simp [hm]
    have hdirectory := isDirectory_path_iff.2 ⟨ha, _, leadsTo_self hthere⟩
    simp [hstorable, hsome, hdirectory]

theorem Fits.makeDirectoriesUpTo {fuel : Nat} (h : fs.Fits goal) (hgoal : goal.isDirectoryAt l = true)
    (ha : accept l.path = .ok ()) (hfuel : l.length < fuel) :
    (FileSystem.makeDirectoriesUpTo fuel l.path fs).2 = .ok () := by
  induction fuel generalizing l with
  | zero => omega
  | succ fuel ih =>
    have hcomp : l.path.components ≠ [] := by simp [Location.components_path]
    rw [FileSystem.makeDirectoriesUpTo, if_neg hcomp]
    rcases List.eq_nil_or_concat l with rfl | ⟨d, n, rfl⟩
    · have hroot : fs.isDirectoryAt [] = true := isDirectoryAt_iff_get?.2 ⟨_, get?_root fs⟩
      rw [makeDirectory_root, Location.parent_root]
      simp [FileSystem.settle, makeDirectory_root, isDirectory_path_iff.2 ⟨ha, _, leadsTo_self hroot⟩]
    · rw [List.concat_eq_append] at *
      have hgoal' := isDirectoryAt_above hgoal (List.prefix_append d [n])
      have hlength : d.length < fuel := by
        rw [List.length_append, List.length_singleton] at hfuel
        omega
      rw [Location.parent_path]
      -- what is above is made first if it is missing; else it is a directory, since it is one in the goal
      split
      next parent hm hp =>
        cases hp
        have hok := ih hgoal' (accept_path_above ha (List.prefix_append _ _)) hlength
        obtain ⟨hg, hs⟩ := makeDirectoriesUpTo_path hlength fs
        rcases hmid : FileSystem.makeDirectoriesUpTo fuel (Location.path d) fs with ⟨mid, r⟩
        rw [hmid] at hok hg hs
        cases hok
        have hfree := h.freeOfLinks hgoal'
        exact (h.grown hgoal' hg (hg.freeOfLinks hfree)).settle hgoal ha (hs.isDirectoryAt hg hfree)
      next hno =>
        rcases h.none_or_directory hgoal' with hnone | hd
        · exact (hno _ (h.makeDirectory_missing hgoal' ha hnone) rfl).elim
        · exact h.settle hgoal ha hd

theorem Fits.makeDirectories (h : fs.Fits goal) (hgoal : goal.isDirectoryAt l = true) (ha : accept l.path = .ok ()) :
    ∃ mid, fs.makeDirectories l.path = (mid, .ok ()) ∧ mid.Fits goal ∧ mid.isDirectoryAt l = true := by
  obtain ⟨hg, hs⟩ := makeDirectories_path fs l
  have hok : (fs.makeDirectories l.path).2 = .ok () := by
    apply h.makeDirectoriesUpTo hgoal ha
    simp only [Location.components_path, List.length_cons, List.length_map]
    omega
  rcases hm : fs.makeDirectories l.path with ⟨mid, r⟩
  rw [hm] at hg hs hok
  cases hok
  have hfree := h.freeOfLinks hgoal
  exact ⟨mid, rfl, h.grown hgoal hg (hg.freeOfLinks hfree), hs.isDirectoryAt hg hfree⟩

theorem Fits.write (h : fs.Fits goal) (hgoal : goal.get? (d ++ [n]) = some (.file content mode))
    (ha : accept (Location.path (d ++ [n])) = .ok ()) (hd : fs.isDirectoryAt d = true) (text : ByteArray) :
    ∃ fs', fs.write (Location.path (d ++ [n])) text = .ok fs' ∧ fs'.Fits goal := by
  have hstorable := mem_name_of_get? hgoal n (by simp)
  rcases h.none_or_file hgoal with hn | ⟨content', mode', hn⟩
  · rw [write_path ha hd (by simp [hn]), hn]
    exact ⟨_, if_pos hstorable, h.put hgoal rfl rfl⟩
  · rw [write_path ha hd (by simp [hn]), hn]
    exact ⟨_, rfl, h.put hgoal rfl rfl⟩

theorem isDirectoryAt_put (h : fs.isDirectoryAt k = false) (he : e.isDirectory = false) :
    (fs.put l e).isDirectoryAt k = false := by
  rw [FileSystem.put]
  split
  next htakes =>
    have hput := get?_put htakes k
    rw [FileSystem.put, dif_pos htakes] at hput
    rw [FileSystem.isDirectoryAt, hput]
    split
    · exact he
    · exact h
  next => exact h

theorem moveOver_of_slot {place : Location} {p : Path} (h : fs.slot p = .ok place)
    (hd : fs.isDirectoryAt place = false) : fs.moveOver l e p = .ok ((fs.erase l).put place e) := by
  rw [moveOver, h]
  simp [hd]

theorem isSome_temporary? {t : Name} (ht : t ∈ temporaryNames) (h : fs.get? (d ++ [t]) = none) :
    ∃ l, fs.temporary? d = some l := by
  rw [← Option.isSome_iff_exists, temporary?, List.find?_isSome]
  exact ⟨_, List.mem_map_of_mem ht, by simp [h]⟩

theorem Fits.replace {t : Name} {text : String} (h : fs.Fits goal)
    (hgoal : goal.get? (d ++ [n]) = some (.file content mode)) (ha : accept (Location.path (d ++ [n])) = .ok ())
    (ht : t ∈ temporaryNames) (hfree : fs.get? (d ++ [t]) = none) :
    ∃ fs', fs.replace (Location.path (d ++ [n])) text = (fs', .ok ()) := by
  have hstorable := mem_name_of_get? hgoal n (by simp)
  have hdirectory : goal.isDirectoryAt d = true := isDirectoryAt_iff_get?.2 (get?_dropLast_of_get? hgoal)
  have haccept := accept_path_above ha (List.prefix_append d [n])
  obtain ⟨mid, hmake, hmid, hd⟩ := h.makeDirectories hdirectory haccept
  obtain ⟨hg, hs⟩ := makeDirectories_path fs d
  rw [hmake] at hg hs
  have hroom : mid.get? (d ++ [t]) = none := by
    rw [← outline_eq_none_iff, outline_of_settled hg hs (h.freeOfLinks hdirectory), if_neg]
    · exact outline_eq_none_iff.2 hfree
    · rintro ⟨hle, -⟩
      have hlength := hle.length_le
      rw [List.length_append, List.length_singleton] at hlength
      omega
  obtain ⟨temporary, htemp⟩ := isSome_temporary? ht hroom
  have hnone := get?_of_temporary? htemp
  obtain ⟨mode', hm⟩ := isDirectoryAt_iff_get?.1 hd
  unfold FileSystem.replace
  rw [Location.directory_path]
  simp only [hmake, find_path haccept hm (.inr rfl), htemp]
  rw [moveOver_of_slot]
  · exact ⟨_, rfl⟩
  · apply slot_path_eq_ok_iff.2
    exact ⟨ha, hstorable, d, (leadsTo_self hd).mono fun _ _ hj => get?_put_of_get? hnone _ hj, rfl⟩
  · apply isDirectoryAt_put _ rfl
    rw [Bool.eq_false_iff]
    intro hplace
    simpa [FileSystem.isDirectoryAt, hgoal, Entry.isDirectory] using hmid.isDirectoryAt hplace

theorem Fits.open (h : fs.Fits goal) (hopen : goal.Open base base) : fs.Open base base := by
  intro rel mode hrel hget
  obtain ⟨mode', hm⟩ := isDirectoryAt_iff_get?.1 (h.isDirectoryAt (isDirectoryAt_iff_get?.2 ⟨mode, hget⟩))
  exact hopen rel mode' hrel hm

theorem Fits.exists_snapshotOrEmpty (h : fs.Fits goal) (hgoal : goal.isDirectoryAt base = true)
    (ha : accept base.path = .ok ()) (hopen : goal.Open base base) :
    ∃ paths, fs.snapshotOrEmpty s base.path = .ok paths := by
  rw [snapshotOrEmpty]
  rcases h.none_or_directory hgoal with hnone | hd
  · rw [h.find_missing hgoal ha hnone]
    exact ⟨_, rfl⟩
  · obtain ⟨mode, hm⟩ := isDirectoryAt_iff_get?.1 hd
    rw [find_path ha hm (.inl rfl)]
    exact exists_snapshot (find_path ha hm (.inr rfl)) (h.open hopen)

end FileSystem

namespace Stage

open FileSystem

variable {fs goal : FileSystem} {base : Location} {s : Schedule}

theorem exists_listDeclarations (h : fs.Fits goal) (hgoal : goal.isDirectoryAt base = true)
    (ha : accept base.path = .ok ()) (hopen : goal.Open base base) :
    ∃ found, listDeclarations s fs base.path = .ok found := by
  rw [listDeclarations]
  rcases h.none_or_directory hgoal with hnone | hd
  · rw [h.find_missing hgoal ha hnone]
    exact ⟨_, rfl⟩
  · obtain ⟨mode, hm⟩ := isDirectoryAt_iff_get?.1 hd
    have hfind : fs.find true base.path = .ok (base, .directory mode) := find_path ha hm (.inr rfl)
    rw [hfind]
    exact exists_declarations hfind (h.open hopen)

end Stage

end DeclBundle
