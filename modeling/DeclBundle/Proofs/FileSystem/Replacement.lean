import DeclBundle.Proofs.FileSystem.Entrance
import DeclBundle.Proofs.FileSystem.Growth

/-!
Replacing a file. The text is staged under a name that is free, so a failure leaves the tree with
the directories made and nothing else, and success changes one place more.
-/

namespace DeclBundle.FileSystem

variable {fs fs' : FileSystem} {p : Path} {d l k : Location} {n : Name} {e : Entry} {text : String} {mode : Nat}
  {r : Except IoError Unit}

theorem get?_erase_put (h : fs.get? l = none) (e : Entry) (k : Location) :
    ((fs.put l e).erase l).get? k = fs.get? k := by
  rw [get?_erase]
  split
  next hl => exact (get?_below_eq_none h hl.1).symm
  next hl =>
    apply get?_put_of_ne
    rintro rfl
    have hroot : k = [] := Classical.byContradiction fun hk => hl ⟨List.prefix_refl _, hk⟩
    rw [hroot, get?_root] at h
    cases h

theorem get?_of_temporary? {directory : Location} (h : fs.temporary? directory = some l) : fs.get? l = none := by
  simpa using List.find?_some h

theorem slot_path_eq_ok_iff {place : Location} : fs.slot (Location.path (d ++ [n])) = .ok place ↔
    accept (Location.path (d ++ [n])) = .ok () ∧ n.isStorable = true ∧ ∃ k, fs.LeadsTo d k ∧ place = k ++ [n] := by
  rw [slot, Results.bind_eq_ok]
  constructor
  · rintro ⟨x, he, h⟩
    obtain ⟨ha, k, hk, rfl⟩ := entrance_path_eq_ok_iff.1 he
    cases hn : n.isStorable with
    | true =>
      simp only [hn, Bool.not_true, Bool.false_eq_true, ↓reduceIte, Results.pure_eq_ok,
        Except.ok.injEq] at h
      exact ⟨ha, rfl, k, hk, h.symm⟩
    | false => simp [hn] at h
  · rintro ⟨ha, hn, k, hk, rfl⟩
    refine ⟨_, entrance_path_eq_ok_iff.2 ⟨ha, k, hk, rfl⟩, ?_⟩
    simp [hn]

theorem exists_enters_of_slot (h : fs.slot p = .ok l) :
    ∃ d n, fs.Enters p d n false ∧ n.isStorable = true ∧ l = d ++ [n] := by
  obtain ⟨⟨d, last⟩, he, h⟩ := Results.bind_eq_ok.1 h
  cases last with
  | name n slash =>
    cases hn : n.isStorable with
    | false => simp [hn] at h
    | true =>
      cases slash with
      | true => simp [hn] at h
      | false =>
        simp only [hn, Bool.not_true, Bool.false_eq_true, ↓reduceIte, Results.pure_eq_ok, Except.ok.injEq] at h
        exact ⟨d, n, enters_of_entrance he, hn, h.symm⟩
  | _ => cases h

theorem moveOver_eq_ok (h : fs.moveOver l e p = .ok fs') :
    ∃ place, fs.slot p = .ok place ∧ fs.isDirectoryAt place = false ∧ fs' = (fs.erase l).put place e := by
  rw [moveOver, Results.bind_eq_ok] at h
  obtain ⟨place, hs, h⟩ := h
  refine ⟨place, Results.mapError_eq_ok.1 hs, ?_⟩
  cases hd : fs.isDirectoryAt place with
  | true => simp [hd] at h
  | false =>
    simp only [hd, Bool.false_eq_true, ↓reduceIte, Results.pure_eq_ok, Except.ok.injEq] at h
    exact ⟨rfl, h.symm⟩

/-- A tree that differs from another in one place, which is a file in it. -/
structure Replaced (fs fs' : FileSystem) (place : Location) (text : String) (mode : Nat) : Prop where
  free : fs.isDirectoryAt place = false
  get?_eq : ∀ k, fs'.get? k = if k = place then some (.file text.toUTF8 mode) else fs.get? k

theorem Replaced.get?_place (h : Replaced fs fs' l text mode) :
    fs'.get? l = some (.file text.toUTF8 mode) := by
  rw [h.get?_eq, if_pos rfl]

theorem Replaced.isSome (h : Replaced fs fs' l text mode) (hk : (fs.get? k).isSome = true) :
    (fs'.get? k).isSome = true := by
  rw [h.get?_eq]
  split
  · rfl
  · exact hk

theorem Replaced.leadsTo_of_after {place : Location} (h : Replaced fs fs' place text mode)
    (hk : fs'.LeadsTo l k) : fs.LeadsTo l k := by
  have hback (j : Location) (e : Entry) (hj : fs'.get? j = some e) (he : e.isFile = false) : fs.get? j = some e := by
    rw [h.get?_eq] at hj
    split at hj
    · cases hj
      cases he
    · exact hj
  obtain ⟨mode', hresolve⟩ := hk
  exact ⟨mode', resolve_transfer (fun e => e.isFile = false) (fun _ he => he) hback rfl hresolve⟩

theorem get?_of_put_file {content : ByteArray} (h : (fs.put l (.file content mode)).get? k = some e)
    (he : e.isFile = false) : fs.get? k = some e := by
  by_cases ht : fs.Takes l (.file content mode)
  · rw [get?_put ht] at h
    split at h
    · cases h
      cases he
    · exact h
  · rwa [put, dif_neg ht] at h

theorem replaced_of_moveOver {temporary : Location} (ht : fs.get? temporary = none)
    (h : (fs.put temporary (.file text.toUTF8 mode)).moveOver temporary (.file text.toUTF8 mode) p = .ok fs') :
    ∃ d n, fs.Enters p d n false ∧ n.isStorable = true ∧ Replaced fs fs' (d ++ [n]) text mode := by
  obtain ⟨place, hs, hd, rfl⟩ := moveOver_eq_ok h
  obtain ⟨d, n, henter, hn, rfl⟩ := exists_enters_of_slot hs
  have hcwd : fs.cwd = (fs.put temporary (.file text.toUTF8 mode)).cwd := (put_cwd _ _ _).symm
  have henter : fs.Enters p d n false := henter.transfer hcwd fun _ _ => get?_of_put_file
  have hfree : fs.isDirectoryAt (d ++ [n]) = false := by
    rw [Bool.eq_false_iff]
    intro hdir
    obtain ⟨mode', hm⟩ := isDirectoryAt_iff_get?.1 hdir
    rw [isDirectoryAt_iff_get?.2 ⟨mode', get?_put_of_get? ht _ hm⟩] at hd
    cases hd
  have hback := get?_erase_put ht (.file text.toUTF8 mode)
  have htakes : ((fs.put temporary (.file text.toUTF8 mode)).erase temporary).Takes (d ++ [n])
      (.file text.toUTF8 mode) := by
    apply takes_concat _ _ hn
    · rw [isDirectoryAt_congr (hback _), hfree]
    · rw [isDirectoryAt_congr (hback d), henter.isDirectoryAt]
  refine ⟨d, n, henter, hn, hfree, ?_⟩
  intro i
  rw [get?_put htakes, hback]

def prepared (fs : FileSystem) (p : Path) : FileSystem :=
  (fs.makeDirectories p.directory).1

theorem replace_eq (h : fs.replace p text = (fs', r)) :
    (∃ err, r = .error err ∧ ∀ k, fs'.get? k = (fs.prepared p).get? k) ∨
    (r = .ok () ∧ (fs.makeDirectories p.directory).2 = .ok () ∧
      ∃ d n, (fs.prepared p).Enters p d n false ∧ n.isStorable = true ∧
        Replaced (fs.prepared p) fs' (d ++ [n]) text ((fs.prepared p).modeFor p)) := by
  rw [prepared]
  unfold replace at h
  rcases hm : fs.makeDirectories p.directory with ⟨prepared, result⟩
  simp only [hm] at h ⊢
  cases result with
  | error err =>
    cases h
    exact .inl ⟨err, rfl, fun _ => rfl⟩
  | ok u =>
    dsimp only at h
    split at h
    next err hf =>
      cases h
      exact .inl ⟨err, rfl, fun _ => rfl⟩
    next place e hf =>
      cases ht : prepared.temporary? place with
      | none =>
        rw [ht] at h
        cases h
        exact .inl ⟨_, rfl, fun _ => rfl⟩
      | some temporary =>
        have htemp := get?_of_temporary? ht
        simp only [ht] at h
        split at h
        next done hmove =>
          cases h
          exact .inr ⟨rfl, rfl, replaced_of_moveOver htemp hmove⟩
        next err hmove =>
          cases h
          exact .inl ⟨err, rfl, get?_erase_put htemp _⟩

theorem replace_cwd (fs : FileSystem) (p : Path) (text : String) :
    (fs.replace p text).1.cwd = (fs.prepared p).cwd := by
  rw [prepared]
  unfold replace
  dsimp only
  split
  next hm => rw [hm]
  next prepared hm =>
    rw [hm]
    split
    next => rfl
    next =>
      split
      next => rfl
      next =>
        split
        next done hmove =>
          obtain ⟨place, -, -, rfl⟩ := moveOver_eq_ok hmove
          simp
        next => simp

theorem replace_path (h : fs.replace (Location.path (d ++ [n])) text = (fs', r)) :
    (∃ err, r = .error err ∧ ∀ j, fs'.get? j = (fs.makeDirectories d.path).1.get? j) ∨
    (r = .ok () ∧ accept (Location.path (d ++ [n])) = .ok () ∧ n.isStorable = true ∧
      Settled fs (fs.makeDirectories d.path).1 d (.ok ()) ∧
      ∃ k, (fs.makeDirectories d.path).1.LeadsTo d k ∧
        Replaced (fs.makeDirectories d.path).1 fs' (k ++ [n]) text
          ((fs.makeDirectories d.path).1.modeFor (Location.path (d ++ [n])))) := by
  obtain ⟨-, hs⟩ := makeDirectories_path fs d
  rcases replace_eq h with hfailed | ⟨hr, hmade, k, m, henter, hn, hreplaced⟩
  · rw [prepared, Location.directory_path] at hfailed
    exact .inl hfailed
  · rw [prepared, Location.directory_path] at henter hreplaced
    rw [Location.directory_path] at hmade
    rw [hmade] at hs
    obtain ⟨ha, hk, rfl, -⟩ := enters_path_iff.1 henter
    exact .inr ⟨hr, ha, hn, hs, k, hk, hreplaced⟩

theorem exists_temporary_of_replace (hfree : fs.FreeOfLinks d)
    (h : fs.replace (Location.path (d ++ [n])) text = (fs', .ok ())) :
    ∃ t ∈ temporaryNames, fs.get? (d ++ [t]) = none := by
  obtain ⟨hg, hs⟩ := makeDirectories_path fs d
  unfold replace at h
  rw [Location.directory_path] at h
  rcases hm : fs.makeDirectories (Location.path d) with ⟨mid, _ | u⟩
  · simp [hm] at h
  · rw [hm] at hg hs
    obtain ⟨mode, hd⟩ := isDirectoryAt_iff_get?.1 (hs.isDirectoryAt hg hfree)
    simp only [hm, find_path hs.1 hd (.inr rfl)] at h
    cases ht : mid.temporary? d with
    | none => simp [ht] at h
    | some temporary =>
      obtain ⟨t, ht', rfl⟩ := List.mem_map.1 (List.mem_of_find?_eq_some ht)
      refine ⟨t, ht', ?_⟩
      rw [Option.eq_none_iff_forall_ne_some]
      intro e he
      have hnone := get?_of_temporary? ht
      rw [hg.kept _ e he] at hnone
      cases hnone

theorem getLast?_of_mem_temporaryNames (h : n ∈ temporaryNames) : n.text.toList.getLast? = some 'p' := by
  obtain ⟨k, -, hk⟩ := List.mem_filterMap.1 h
  unfold Name.ofString? at hk
  split at hk
  · cases hk
    rw [String.toList_append, List.getLast?_append]
    rfl
  · cases hk

end DeclBundle.FileSystem
