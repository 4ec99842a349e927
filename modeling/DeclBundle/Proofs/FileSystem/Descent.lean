import DeclBundle.Proofs.FileSystem.Resolution
import DeclBundle.Proofs.Results

namespace DeclBundle.FileSystem

variable {fs fs' : FileSystem} {follow : Bool} {links : Nat} {l k : Location} {steps rest : List Step}
  {e : Entry} {mode : Nat}

theorem advance_downs {rel : List Name} (h : fs.isDirectoryAt (l ++ rel) = true) (rest : List Step) :
    fs.advance l (rel.map .down ++ rest) = fs.advance (l ++ rel) rest := by
  induction rel generalizing l with
  | nil => simp
  | cons n rel ih =>
    rw [List.append_cons] at h ⊢
    have hdir : fs.isDirectoryAt (l ++ [n]) = true := by
      by_cases hr : rel = []
      · simpa [hr] using h
      · obtain ⟨_, he⟩ := isDirectoryAt_iff_get?.1 h
        exact isDirectoryAt_of_append he hr
    obtain ⟨mode, hn⟩ := isDirectoryAt_iff_get?.1 hdir
    obtain ⟨mode', hl⟩ := get?_dropLast_of_get? hn
    rw [List.map_cons, List.cons_append, advance_down n hl, hn]
    exact ih h

theorem resolve_downs {rel : List Name} (h : fs.get? (l ++ rel) = some e)
    (hl : rel ≠ [] → fs.isDirectoryAt l = true) (he : follow = false ∨ e.isLink = false) :
    fs.resolve follow links l (rel.map .down) = .ok (.present (l ++ rel) e) := by
  rcases List.eq_nil_or_concat rel with rfl | ⟨front, n, rfl⟩
  · rw [List.append_nil] at h ⊢
    exact resolve_of_target (advance_nil h)
  · rw [List.concat_eq_append] at h ⊢
    rw [← List.append_assoc] at h ⊢
    obtain ⟨mode, hd⟩ := get?_dropLast_of_get? h
    have hfront : fs.advance l ((front ++ [n]).map .down) = fs.advance (l ++ front) [.down n] := by
      rw [List.map_append]
      exact advance_downs (isDirectoryAt_iff_get?.2 ⟨mode, hd⟩) _
    rw [resolve_congr hfront]
    cases e with
    | link text =>
      have hlast : fs.advance (l ++ front) [.down n] = .link (l ++ front ++ [n]) text [] := by
        rw [advance_down n hd, h]
      rcases he with rfl | he
      · exact resolve_of_last_link hlast
      · simp [Entry.isLink] at he
    | _ =>
      apply resolve_of_target
      rw [advance_down n hd, h]
      exact advance_nil h

def Reach.EndsAt (l : Location) : Reach → Prop
  | target t => t.place = l
  | link _ _ _ => False
  | failed _ => True

theorem advance_downs_of_free {rel : List Name}
    (hfree : ∀ k, k <+: rel → k ≠ [] → ∀ text, fs.get? (l ++ k) ≠ some (.link text)) :
    (fs.advance l (rel.map .down)).EndsAt (l ++ rel) := by
  induction rel generalizing l with
  | nil =>
    cases hl : fs.get? l with
    | none => simp [advance_of_none hl, Reach.EndsAt]
    | some e => simp [advance_nil hl, Reach.EndsAt, Target.place]
  | cons n rel ih =>
    cases hl : fs.get? l with
    | none => simp [advance_of_none hl, Reach.EndsAt]
    | some e =>
      cases e with
      | directory mode =>
        have hn := hfree [n] (by simp) (by simp)
        have hbelow : ∀ k, k <+: rel → k ≠ [] → ∀ text, fs.get? (l ++ [n] ++ k) ≠ some (.link text) := by
          intro k hk _ text
          rw [List.append_assoc, List.singleton_append]
          exact hfree (n :: k) (by simpa using hk) (by simp) text
        have hrel := ih hbelow
        rw [List.append_assoc, List.singleton_append] at hrel
        rw [List.map_cons, advance_down n hl]
        cases hg : fs.get? (l ++ [n]) with
        | none =>
          dsimp only
          split
          · next hs => simp [Reach.EndsAt, Target.place, List.map_eq_nil_iff.1 hs.1]
          · trivial
        | some e =>
          cases e with
          | link text => exact absurd hg (hn text)
          | _ => exact hrel
      | _ =>
        rw [advance_of_not_directory hl rfl (by simp)]
        trivial

theorem place_of_resolve_free {rel : List Name} {t : Target}
    (hfree : ∀ k, k <+: rel → k ≠ [] → ∀ text, fs.get? (l ++ k) ≠ some (.link text))
    (h : fs.resolve follow links l (rel.map .down) = .ok t) : t.place = l ++ rel := by
  have hends := advance_downs_of_free hfree
  cases ha : fs.advance l (rel.map .down) with
  | target t' =>
    rw [resolve_of_target ha] at h
    rw [ha] at hends
    cases h
    exact hends
  | failed number => simp [resolve_of_failed ha] at h
  | link k text rest =>
    rw [ha] at hends
    exact hends.elim

def FreeOfLinks (fs : FileSystem) (l : Location) : Prop :=
  ∀ k, k <+: l → ∀ text, fs.get? k ≠ some (.link text)

theorem freeOfLinks_of_isDirectoryAt (h : fs.isDirectoryAt l = true) : fs.FreeOfLinks l := by
  rintro k ⟨rest, rfl⟩ text hk
  by_cases hr : rest = []
  · simp [hr, isDirectoryAt, hk, Entry.isDirectory] at h
  · obtain ⟨mode, hm⟩ := isDirectoryAt_iff_get?.1 h
    simpa [isDirectoryAt, hk, Entry.isDirectory] using isDirectoryAt_of_append hm hr

theorem FreeOfLinks.above (h : fs.FreeOfLinks l) (hk : k <+: l) : fs.FreeOfLinks k := by
  intro j hj
  exact h j (hj.trans hk)

theorem FreeOfLinks.place_eq {t : Target} (hfree : fs.FreeOfLinks l)
    (h : fs.resolve follow links [] (l.map .down) = .ok t) : t.place = l :=
  place_of_resolve_free (l := []) (fun k hk _ => hfree k hk) h

theorem resolve_steps_path (fs : FileSystem) (follow : Bool) (links : Nat) (l : Location) :
    fs.resolve follow links [] l.path.steps = fs.resolve follow links [] (l.map .down) := by
  rw [Location.steps_path]
  split
  · next hl =>
    subst hl
    exact resolve_congr (advance_here (get?_root fs))
  · rfl

theorem place?_path (fs : FileSystem) (l : Location) :
    fs.place? l.path = (fs.resolve false maxLinks [] (l.map .down)).toOption.map Target.place := by
  rw [place?, Location.start_path, resolve_steps_path]

theorem find_eq_ok_iff {p : Path} : fs.find follow p = .ok (k, e) ↔
    accept p = .ok () ∧ fs.resolve follow maxLinks (p.start fs.cwd) p.steps = .ok (.present k e) := by
  rw [find, locate]
  cases ha : accept p with
  | error err => simp
  | ok u =>
    cases hr : fs.resolve follow maxLinks (p.start fs.cwd) p.steps with
    | error number => simp
    | ok t => cases t <;> simp

theorem exists_find_iff {p : Path} :
    (∃ k, fs.find false p = .ok (k, e)) ↔ accept p = .ok () ∧ fs.entryAt? p = some e := by
  simp only [find_eq_ok_iff, exists_and_left, entryAt?_eq_some_iff]

theorem entryAt?_of_find {p : Path} (h : fs.find false p = .ok (k, e)) : fs.entryAt? p = some e :=
  (exists_find_iff.1 ⟨k, h⟩).2

theorem exists_entryAt?_of_find {p : Path} (h : fs.find true p = .ok (k, e)) : ∃ e', fs.entryAt? p = some e' := by
  obtain ⟨j, e', hj⟩ := exists_resolve_of_follow (find_eq_ok_iff.1 h).2
  exact ⟨e', entryAt?_eq_some_iff.2 ⟨j, hj⟩⟩

theorem find_path_eq_ok_iff : fs.find follow l.path = .ok (k, e) ↔
    accept l.path = .ok () ∧ fs.resolve follow maxLinks [] (l.map .down) = .ok (.present k e) := by
  rw [find_eq_ok_iff, Location.start_path, resolve_steps_path]

theorem accept_eq_ok_iff {p : Path} : accept p = .ok () ↔
    '\x00' ∉ p.text.toList ∧ p.text ≠ "" ∧ p.text.utf8ByteSize ≤ maxPathSize := by
  unfold accept
  split
  · simp_all
  · split
    · simp_all
    · split
      · next hlong => simp_all [Nat.not_le.mpr hlong]
      · next hshort => simp_all [Nat.not_lt.mp hshort]

theorem text_path_append (l k : Location) : ∃ tail, (Location.path (l ++ k)).text = l.path.text ++ tail := by
  by_cases hk : k = []
  · exact ⟨"", by simp [hk]⟩
  by_cases hl : l = []
  · subst hl
    exact ⟨"/".intercalate (k.map Name.text), by simp [Location.path]⟩
  · rw [Location.path, List.map_append, String.intercalate_append_of_ne_nil (by simpa) (by simpa), Location.path]
    exact ⟨"/" ++ "/".intercalate (k.map Name.text), by simp [String.append_assoc]⟩

theorem accept_path_above (h : accept l.path = .ok ()) (hk : k <+: l) : accept k.path = .ok () := by
  obtain ⟨rest, rfl⟩ := hk
  obtain ⟨tail, ht⟩ := text_path_append k rest
  rw [accept_eq_ok_iff, ht, String.toList_append, String.utf8ByteSize_append] at h
  obtain ⟨hzero, -, hsize⟩ := h
  apply accept_eq_ok_iff.2
  refine ⟨?_, k.text_path_ne_empty, ?_⟩
  · intro hc
    exact hzero (List.mem_append_left _ hc)
  · omega

theorem resolve_path (h : fs.get? l = some e) {follow : Bool} {links : Nat}
    (he : follow = false ∨ e.isLink = false) :
    fs.resolve follow links [] (l.map .down) = .ok (.present l e) := by
  have hroot : fs.isDirectoryAt [] = true := isDirectoryAt_iff_get?.2 ⟨_, get?_root fs⟩
  exact resolve_downs (l := []) (by simpa using h) (fun _ => hroot) he

theorem find_path (ha : accept l.path = .ok ()) (h : fs.get? l = some e) {follow : Bool}
    (he : follow = false ∨ e.isLink = false) : fs.find follow l.path = .ok (l, e) :=
  find_path_eq_ok_iff.2 ⟨ha, resolve_path h he⟩

theorem find_path_of_error {err : IoError} {follow : Bool} (ha : accept l.path = .error err) :
    fs.find follow l.path = .error err := by
  simp [find, locate, ha]

theorem not_isNotFound_of_accept {err : IoError} (ha : accept l.path = .error err) :
    err.isNotFound = false := by
  unfold accept at ha
  split at ha
  · cases ha
    rfl
  · split at ha
    · next h => exact absurd h l.text_path_ne_empty
    · split at ha
      · cases ha
        rfl
      · cases ha

end DeclBundle.FileSystem
