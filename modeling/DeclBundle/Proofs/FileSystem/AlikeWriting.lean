import DeclBundle.Proofs.FileSystem.AlikeReading
import DeclBundle.Proofs.FileSystem.Furnishing
import DeclBundle.Proofs.FileSystem.Removal

namespace DeclBundle.FileSystem

variable {fs fs' : FileSystem} {base l b : Location} {rel : List Name} {n : Name}

theorem remove_path_of_free (hl : l ≠ []) (ha : accept l.path = .ok ()) (hfree : fs.FreeOfLinks l) :
    fs.remove l.path =
      match fs.get? l with
      | none =>
        (fs, if (IoError.os (fs.obstacle [] l)).isNotFound then .alreadyGone
          else .failed (.os (fs.obstacle [] l)))
      | some (.directory _) => ((fs.clear l).erase l, .removed)
      | some _ => (fs.erase l, .removed) := by
  rw [remove, find_path_of_free hfree ha]
  cases hget : fs.get? l with
  | none => rfl
  | some e =>
    cases e with
    | directory mode =>
      obtain ⟨d, n, rfl⟩ := (List.eq_nil_or_concat l).resolve_left hl
      rw [List.concat_eq_append] at *
      simp only [removeDirectory_clear hget]
    | _ => rfl

theorem Alike.remove (h : Alike fs fs' base) (hnames : ∀ n ∈ base, n.isStorable = true) (hbase : base ≠ [])
    (hfree : fs.FreeOfLinks (base ++ rel)) :
    (fs.remove (Location.path (base ++ rel))).2 = (fs'.remove (Location.path (base ++ rel))).2 ∧
      ∀ b, Alike fs fs' b → Alike (fs.remove (Location.path (base ++ rel))).1
        (fs'.remove (Location.path (base ++ rel))).1 b := by
  cases ha : accept (Location.path (base ++ rel)) with
  | error err =>
    rw [remove_of_error ha, remove_of_error ha]
    exact ⟨rfl, fun _ hb => hb⟩
  | ok u =>
    have hl : base ++ rel ≠ [] := by simp [hbase]
    rw [remove_path_of_free hl ha hfree, remove_path_of_free hl ha (h.freeOfLinks hfree), ← h.get?_eq,
      ← h.obstacle_eq hnames]
    cases fs.get? (base ++ rel) with
    | none => exact ⟨rfl, fun _ hb => hb⟩
    | some e =>
      cases e with
      | directory mode => exact ⟨rfl, fun _ hb => (hb.clear _).erase _⟩
      | _ => exact ⟨rfl, fun _ hb => hb.erase _⟩

theorem alike_remove (h : b.Apart base) (hbase : base ≠ []) (hfree : fs.FreeOfLinks (base ++ rel)) :
    Alike fs (fs.remove (Location.path (base ++ rel))).1 b := by
  have hl : base ++ rel ≠ [] := by simp [hbase]
  have hapart := h.append_right rel
  cases ha : accept (Location.path (base ++ rel)) with
  | error err =>
    rw [remove_of_error ha]
    exact .refl fs b
  | ok u =>
    rw [remove_path_of_free hl ha hfree]
    cases fs.get? (base ++ rel) with
    | none => exact .refl fs b
    | some e =>
      cases e with
      | directory mode => exact (alike_clear hapart).trans (alike_erase hapart)
      | _ => exact alike_erase hapart

theorem alike_ensure (h : ¬b <+: l ++ [n]) : Alike fs (fs.ensure (l ++ [n])) b := by
  rw [ensure]
  cases hget : fs.get? (l ++ [n]) with
  | some e => exact .refl fs b
  | none => exact alike_put h fun _ => ⟨.inl hget, rfl⟩

theorem Alike.ensure (h : Alike fs fs' base) (hd : fs.isDirectoryAt l = true) (hd' : fs'.isDirectoryAt l = true)
    (hn : n.isStorable = true) : Alike (fs.ensure (l ++ [n])) (fs'.ensure (l ++ [n])) base := by
  by_cases hl : base <+: l ++ [n]
  · have hget := h.get?_of_prefix hl
    rw [FileSystem.ensure, FileSystem.ensure, ← hget]
    cases hnone : fs.get? (l ++ [n]) with
    | some e => exact h
    | none =>
      have hfree : fs.isDirectoryAt (l ++ [n]) = false := by simp [isDirectoryAt, hnone]
      have hfree' : fs'.isDirectoryAt (l ++ [n]) = false := by simp [isDirectoryAt, ← hget, hnone]
      exact h.put (takes_concat _ hd hn hfree) (takes_concat _ hd' hn hfree')
  · exact ((alike_ensure hl).symm.trans h).trans (alike_ensure hl)

theorem Alike.furnish (h : Alike fs fs' base) (hf : fs.Furnishable l rel) (hf' : fs'.Furnishable l rel) :
    Alike (fs.furnish l rel) (fs'.furnish l rel) base := by
  induction rel generalizing fs fs' l with
  | nil => exact h
  | cons n rel ih => exact ih (h.ensure hf.inside hf'.inside hf.storable_head) hf.tail hf'.tail

theorem alike_furnish (h : ¬b <+: l ++ rel) : Alike fs (fs.furnish l rel) b := by
  induction rel generalizing fs l with
  | nil => exact .refl fs b
  | cons n rel ih =>
    rw [List.append_cons] at h
    exact (alike_ensure fun hb => h (hb.trans (List.prefix_append _ _))).trans (ih h)

theorem makeDirectories_cases (hnames : ∀ n ∈ l, n.isStorable = true) (hfree : fs.FreeOfLinks l) :
    (∃ err, fs.makeDirectories l.path = (fs, .error err)) ∨
      fs.Furnishable [] l ∧ fs.makeDirectories l.path = (fs.furnish [] l, .ok ()) := by
  cases ha : accept l.path with
  | error err => exact .inl ⟨err, makeDirectories_of_error ha⟩
  | ok u =>
    by_cases hwall : ∃ k, k <+: l ∧ ¬fs.Enterable k
    · obtain ⟨k, hk, hnot⟩ := hwall
      exact .inl ⟨_, makeDirectories_of_not_enterable ha hfree hk hnot⟩
    · have henter (k : Location) (hk : k <+: l) : fs.Enterable k :=
        Classical.not_not.1 fun hnot => hwall ⟨k, hk, hnot⟩
      have hf : fs.Furnishable [] l := ⟨isDirectoryAt_iff_get?.2 ⟨_, get?_root fs⟩, henter, hnames⟩
      exact .inr ⟨hf, hf.makeDirectories ha⟩

theorem Alike.makeDirectories (h : Alike fs fs' base) (hnames : ∀ n ∈ base ++ rel, n.isStorable = true)
    (hfree : fs.FreeOfLinks (base ++ rel)) :
    (fs.makeDirectories (Location.path (base ++ rel))).2 = (fs'.makeDirectories (Location.path (base ++ rel))).2 ∧
      ∀ b, Alike fs fs' b → Alike (fs.makeDirectories (Location.path (base ++ rel))).1
        (fs'.makeDirectories (Location.path (base ++ rel))).1 b := by
  have hnear (k : Location) (hk : k <+: base ++ rel) : k <+: base ∨ base <+: k :=
    List.prefix_or_prefix_of_prefix hk (List.prefix_append _ _)
  cases ha : accept (Location.path (base ++ rel)) with
  | error err =>
    rw [makeDirectories_of_error ha, makeDirectories_of_error ha]
    exact ⟨rfl, fun _ hb => hb⟩
  | ok u =>
    by_cases hwall : ∃ k, k <+: base ++ rel ∧ ¬fs.Enterable k
    · obtain ⟨k, hk, hnot⟩ := hwall
      have hnot' : ¬fs'.Enterable k := fun he => hnot (h.symm.enterable (hnear k hk) he)
      rw [makeDirectories_of_not_enterable ha hfree hk hnot,
        makeDirectories_of_not_enterable ha (h.freeOfLinks hfree) hk hnot', h.get?_eq]
      exact ⟨rfl, fun _ hb => hb⟩
    · have henter (k : Location) (hk : k <+: base ++ rel) : fs.Enterable k :=
        Classical.not_not.1 fun hnot => hwall ⟨k, hk, hnot⟩
      have hf : fs.Furnishable [] (base ++ rel) := ⟨isDirectoryAt_iff_get?.2 ⟨_, get?_root fs⟩, henter, hnames⟩
      have hf' : fs'.Furnishable [] (base ++ rel) :=
        ⟨isDirectoryAt_iff_get?.2 ⟨_, get?_root fs'⟩, fun k hk => h.enterable (hnear k hk) (henter k hk), hnames⟩
      rw [hf.makeDirectories ha, hf'.makeDirectories ha]
      exact ⟨rfl, fun _ hb => hb.furnish hf hf'⟩

theorem alike_makeDirectories (h : b.Apart base) (hnames : ∀ n ∈ base ++ rel, n.isStorable = true)
    (hfree : fs.FreeOfLinks (base ++ rel)) : Alike fs (fs.makeDirectories (Location.path (base ++ rel))).1 b := by
  rcases makeDirectories_cases hnames hfree with ⟨err, hm⟩ | ⟨-, hm⟩
  · rw [hm]
    exact .refl fs b
  · rw [hm]
    exact alike_furnish (h.append_right rel).1

theorem moveOver_path (hd : fs.isDirectoryAt base = true) (e : Entry) :
    fs.moveOver l e (Location.path (base ++ [n])) =
      match accept (Location.path (base ++ [n])) with
      | .error err => .error (if err = .nulByte then .os .invalid else err)
      | .ok _ =>
        if !n.isStorable then .error (.os .nameTooLong)
        else if fs.isDirectoryAt (base ++ [n]) then .error (.os .isDirectory)
        else .ok ((fs.erase l).put (base ++ [n]) e) := by
  cases ha : accept (Location.path (base ++ [n])) with
  | error err =>
    simp only [moveOver, slot, entrance, ha, Results.error_bind, Results.mapError_error]
  | ok u =>
    have hentrance := entrance_path_eq_ok_iff.2 ⟨ha, base, leadsTo_self hd, rfl⟩
    rw [moveOver, slot, hentrance]
    cases hn : n.isStorable with
    | false => simp [hn, Errno.nameTooLong]
    | true => simp [hn]

def stage (fs : FileSystem) (base : Location) (n : Name) (text : String) : Outcome :=
  match fs.temporary? base with
  | none => (fs, .error (.os .alreadyExists))
  | some temporary =>
    let entry := Entry.file text.toUTF8 (fs.modeFor (Location.path (base ++ [n])))
    match (fs.put temporary entry).moveOver temporary entry (Location.path (base ++ [n])) with
    | .ok done => (done, .ok ())
    | .error err => ((fs.put temporary entry).erase temporary, .error err)

theorem replace_of_not_made {mid : FileSystem} {err : IoError} (h : fs.makeDirectories base.path = (mid, .error err))
    (text : String) : fs.replace (Location.path (base ++ [n])) text = (mid, .error err) := by
  unfold replace
  simp only [Location.directory_path, h]

theorem replace_of_made {mid : FileSystem} (h : fs.makeDirectories base.path = (mid, .ok ()))
    (ha : accept base.path = .ok ()) (hd : mid.isDirectoryAt base = true) (text : String) :
    fs.replace (Location.path (base ++ [n])) text = mid.stage base n text := by
  obtain ⟨mode, hm⟩ := isDirectoryAt_iff_get?.1 hd
  unfold replace
  simp only [Location.directory_path, h, find_path ha hm (.inr rfl)]
  rfl

theorem Alike.temporary?_eq (h : Alike fs fs' base) : fs.temporary? base = fs'.temporary? base := by
  rw [temporary?, temporary?, List.find?_map, List.find?_map]
  congr 2
  funext t
  rw [Function.comp, Function.comp, h.get?_eq]

theorem exists_of_temporary? (h : fs.temporary? base = some l) : ∃ t, l = base ++ [t] := by
  obtain ⟨t, -, rfl⟩ := List.mem_map.1 (List.mem_of_find?_eq_some h)
  exact ⟨t, rfl⟩

theorem isDirectoryAt_staged (hd : fs.isDirectoryAt base = true) (n : Name) (e : Entry) :
    (fs.put (base ++ [n]) e).isDirectoryAt base = true := by
  rwa [isDirectoryAt_congr (get?_put_of_ne fs e (by simp))]

theorem Alike.stage (h : Alike fs fs' base) (hd : fs.isDirectoryAt base = true)
    (hnames : ∀ n ∈ base, n.isStorable = true) (hfree : fs.FreeOfLinks (base ++ [n])) (text : String) :
    (fs.stage base n text).2 = (fs'.stage base n text).2 ∧
      ∀ b, Alike fs fs' b → Alike (fs.stage base n text).1 (fs'.stage base n text).1 b := by
  have hd' : fs'.isDirectoryAt base = true := by rwa [← isDirectoryAt_congr (h.get?_of_prefix (List.prefix_refl base))]
  have hmode : fs.modeFor (Location.path (base ++ [n])) = fs'.modeFor (Location.path (base ++ [n])) := by
    rw [modeFor, modeFor, h.find_eq hnames hfree]
  rw [FileSystem.stage, FileSystem.stage, ← h.temporary?_eq, ← hmode]
  cases ht : fs.temporary? base with
  | none => exact ⟨rfl, fun _ hb => hb⟩
  | some temporary =>
    obtain ⟨t, rfl⟩ := exists_of_temporary? ht
    generalize Entry.file text.toUTF8 (fs.modeFor (Location.path (base ++ [n]))) = entry
    have hstaged (b : Location) (hb : Alike fs fs' b) : Alike (fs.put (base ++ [t]) entry) (fs'.put (base ++ [t]) entry) b := by
      simpa using h.put_below hb [] t entry
    have hback (b : Location) (hb : Alike fs fs' b) := (hstaged b hb).erase (base ++ [t])
    have hsame := isDirectoryAt_congr ((hstaged base h).get?_eq [n])
    simp only [moveOver_path (isDirectoryAt_staged hd t entry), moveOver_path (isDirectoryAt_staged hd' t entry), ← hsame]
    cases accept (Location.path (base ++ [n])) with
    | error err => exact ⟨rfl, hback⟩
    | ok u =>
      cases n.isStorable with
      | false => exact ⟨rfl, hback⟩
      | true =>
        cases (fs.put (base ++ [t]) entry).isDirectoryAt (base ++ [n]) with
        | true => exact ⟨rfl, hback⟩
        | false =>
          refine ⟨rfl, ?_⟩
          intro b hb
          simpa using (hback base h).put_below (hback b hb) [] n entry

theorem alike_stage (h : b.Apart base) (hd : fs.isDirectoryAt base = true) (n : Name) (text : String) :
    Alike fs (fs.stage base n text).1 b := by
  rw [stage]
  cases ht : fs.temporary? base with
  | none => exact .refl fs b
  | some temporary =>
    obtain ⟨t, rfl⟩ := exists_of_temporary? ht
    generalize Entry.file text.toUTF8 (fs.modeFor (Location.path (base ++ [n]))) = entry
    have hback : Alike fs ((fs.put (base ++ [t]) entry).erase (base ++ [t])) b :=
      (alike_put_of_apart (h.append_right [t]) entry).trans (alike_erase (h.append_right [t]))
    simp only [moveOver_path (isDirectoryAt_staged hd t entry)]
    split
    next done hdone =>
      split at hdone
      · cases hdone
      · split at hdone
        · cases hdone
        · split at hdone
          · cases hdone
          · cases hdone
            exact hback.trans (alike_put_of_apart (h.append_right [n]) entry)
    next => exact hback

theorem makeDirectories_eq_ok {mid : FileSystem} (hfree : fs.FreeOfLinks base)
    (h : fs.makeDirectories base.path = (mid, .ok ())) :
    accept base.path = .ok () ∧ mid.isDirectoryAt base = true ∧
      ∀ rel, fs.FreeOfLinks (base ++ rel) → mid.FreeOfLinks (base ++ rel) := by
  obtain ⟨hg, hs⟩ := makeDirectories_path fs base
  rw [h] at hg hs
  exact ⟨hs.1, hs.isDirectoryAt hg hfree, fun _ => hg.freeOfLinks⟩

theorem Alike.replace (h : Alike fs fs' base) (hnames : ∀ n ∈ base, n.isStorable = true)
    (hfree : fs.FreeOfLinks (base ++ [n])) (text : String) :
    (fs.replace (Location.path (base ++ [n])) text).2 = (fs'.replace (Location.path (base ++ [n])) text).2 ∧
      ∀ b, Alike fs fs' b → Alike (fs.replace (Location.path (base ++ [n])) text).1
        (fs'.replace (Location.path (base ++ [n])) text).1 b := by
  have hbase : fs.FreeOfLinks base := hfree.above (List.prefix_append _ _)
  have hmade := h.makeDirectories (by simpa using hnames) hbase.append_nil
  rw [List.append_nil] at hmade
  obtain ⟨hsame, halike⟩ := hmade
  rcases hm : fs.makeDirectories base.path with ⟨mid, err | u⟩
  · rcases hm' : fs'.makeDirectories base.path with ⟨mid', err' | u'⟩
    · rw [hm, hm'] at hsame halike
      rw [replace_of_not_made hm, replace_of_not_made hm']
      exact ⟨hsame, halike⟩
    · rw [hm, hm'] at hsame
      cases hsame
  · rcases hm' : fs'.makeDirectories base.path with ⟨mid', err' | u'⟩
    · rw [hm, hm'] at hsame
      cases hsame
    · obtain ⟨ha, hd, hkept⟩ := makeDirectories_eq_ok hbase hm
      obtain ⟨-, hd', -⟩ := makeDirectories_eq_ok (by simpa using h.freeOfLinks hbase.append_nil) hm'
      rw [replace_of_made hm ha hd, replace_of_made hm' ha hd']
      rw [hm, hm'] at halike
      obtain ⟨hresult, hstage⟩ := (halike base h).stage hd hnames (hkept _ hfree) text
      exact ⟨hresult, fun b hb => hstage b (halike b hb)⟩

theorem alike_replace (h : b.Apart base) (hnames : ∀ n ∈ base, n.isStorable = true)
    (hfree : fs.FreeOfLinks base) (n : Name) (text : String) :
    Alike fs (fs.replace (Location.path (base ++ [n])) text).1 b := by
  have hmade := alike_makeDirectories h (by simpa using hnames) hfree.append_nil
  rw [List.append_nil] at hmade
  rcases hm : fs.makeDirectories base.path with ⟨mid, err | u⟩
  · rw [hm] at hmade
    rw [replace_of_not_made hm]
    exact hmade
  · rw [hm] at hmade
    obtain ⟨ha, hd, -⟩ := makeDirectories_eq_ok hfree hm
    rw [replace_of_made hm ha hd]
    exact hmade.trans (alike_stage h hd n text)

end DeclBundle.FileSystem
