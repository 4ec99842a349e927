import DeclBundle.Pass.Stage
import DeclBundle.Proofs.FileSystem.Removal

namespace DeclBundle

namespace FileSystem

variable {fs : FileSystem} {l : Location} {p : Path} {text : String} {mode : Nat}

theorem fromUTF8?_toUTF8 (text : String) : String.fromUTF8? text.toUTF8 = some text := by
  have hvalid : ByteArray.IsValidUTF8 text.toUTF8 := text.isValidUTF8
  rw [String.fromUTF8?, dif_pos hvalid]
  rfl

theorem toUTF8_of_fromUTF8? {content : ByteArray} (h : String.fromUTF8? content = some text) :
    text.toUTF8 = content := by
  rw [String.fromUTF8?] at h
  split at h
  · cases h
    rfl
  · cases h

theorem read_eq_ok_iff : fs.read p = .ok text ↔
    ∃ l content mode, fs.find true p = .ok (l, .file content mode) ∧ String.fromUTF8? content = some text := by
  rw [FileSystem.read, Results.bind_eq_ok]
  constructor
  · rintro ⟨⟨l, e⟩, hf, h⟩
    cases e with
    | file content mode =>
      refine ⟨l, content, mode, hf, ?_⟩
      cases ht : String.fromUTF8? content with
      | none => simp [ht] at h
      | some read =>
        simp only [ht, Results.pure_eq_ok, Except.ok.injEq] at h
        rw [h]
    | _ => cases h
  · rintro ⟨l, content, mode, hf, ht⟩
    refine ⟨_, hf, ?_⟩
    simp [ht]

theorem read_path (ha : accept l.path = .ok ()) (h : fs.get? l = some (.file text.toUTF8 mode)) :
    fs.read l.path = .ok text :=
  read_eq_ok_iff.2 ⟨l, _, mode, find_path ha h (.inr rfl), fromUTF8?_toUTF8 text⟩

end FileSystem

namespace Stage

variable {fs : FileSystem} {paths : List Path} {texts : List String} {slots slots' : List (Option String)}
  {order : List Nat} {s : Schedule}

theorem readSlots_eq_ok (h : readSlots fs paths order slots = .ok slots') (hlen : slots.length = paths.length) :
    slots'.length = paths.length ∧ ∀ i p, paths[i]? = some p →
      (i ∈ order → ∃ text, fs.read p = .ok text ∧ slots'[i]? = some (some text)) ∧
      (i ∉ order → slots'[i]? = slots[i]?) := by
  induction order generalizing slots with
  | nil =>
    cases h
    exact ⟨hlen, fun i p _ => by simp⟩
  | cons j order ih =>
    rw [readSlots] at h
    cases hj : paths[j]? with
    | none =>
      rw [hj] at h
      obtain ⟨hlen', hslots⟩ := ih h hlen
      refine ⟨hlen', ?_⟩
      intro i p hp
      have hij : i ≠ j := by
        rintro rfl
        simp [hj] at hp
      simpa [hij] using hslots i p hp
    | some q =>
      simp only [hj] at h
      cases hq : fs.read q with
      | error err => simp [hq] at h
      | ok text =>
        simp only [hq] at h
        obtain ⟨hlen', hslots⟩ := ih h (by simpa using hlen)
        refine ⟨hlen', ?_⟩
        intro i p hp
        obtain ⟨hin, hout⟩ := hslots i p hp
        by_cases hio : i ∈ order
        · exact ⟨fun _ => hin hio, fun hn => absurd (List.mem_cons_of_mem _ hio) hn⟩
        · by_cases hij : i = j
          · subst hij
            rw [hj] at hp
            cases hp
            have hi : i < slots.length := by
              rw [hlen]
              exact (List.getElem?_eq_some_iff.1 hj).1
            refine ⟨fun _ => ⟨text, hq, ?_⟩, fun hn => absurd List.mem_cons_self hn⟩
            rw [hout hio, List.getElem?_set_self hi]
          · refine ⟨fun hi => absurd hi (by simp [hij, hio]), fun _ => ?_⟩
            rw [hout hio, List.getElem?_set_ne (Ne.symm hij)]

theorem map_read_of_slots (hlen : slots.length = paths.length)
    (h : ∀ (i : Nat) (p : Path), paths[i]? = some p → ∃ text, fs.read p = .ok text ∧ slots[i]? = some (some text)) :
    paths.map fs.read = (slots.filterMap id).map .ok := by
  induction paths generalizing slots with
  | nil =>
    rw [List.length_eq_zero_iff.1 hlen]
    rfl
  | cons p paths ih =>
    cases slots with
    | nil => simp at hlen
    | cons slot slots =>
      obtain ⟨text, htext, hslot⟩ := h 0 p rfl
      obtain rfl : slot = some text := by simpa using hslot
      have hrest : paths.map fs.read = (slots.filterMap id).map .ok := by
        apply ih
        · simpa using hlen
        · intro i q hq
          exact h (i + 1) q hq
      simp [htext, hrest]

theorem readAll_eq_ok (h : readAll s fs paths = .ok texts) : paths.map fs.read = texts.map .ok := by
  rw [readAll, Results.bind_eq_ok] at h
  obtain ⟨slots, hs, h⟩ := h
  cases h
  obtain ⟨hlen, hslots⟩ := readSlots_eq_ok hs (by simp)
  apply map_read_of_slots hlen
  intro i p hp
  apply (hslots i p hp).1
  rw [(s.reads_perm _).mem_iff, List.mem_range]
  exact (List.getElem?_eq_some_iff.1 hp).1

theorem exists_readSlots (h : ∀ p ∈ paths, ∃ text, fs.read p = .ok text) (order : List Nat)
    (slots : List (Option String)) : ∃ slots', readSlots fs paths order slots = .ok slots' := by
  induction order generalizing slots with
  | nil => exact ⟨slots, rfl⟩
  | cons i order ih =>
    rw [readSlots]
    cases hi : paths[i]? with
    | none => exact ih slots
    | some p =>
      obtain ⟨text, ht⟩ := h p (List.mem_of_getElem? hi)
      simp only [ht]
      exact ih _

theorem readAll_of_map_read (h : paths.map fs.read = texts.map .ok) : readAll s fs paths = .ok texts := by
  have hreadable (p : Path) (hp : p ∈ paths) : ∃ text, fs.read p = .ok text := by
    have hread := List.mem_map_of_mem (f := fs.read) hp
    rw [h] at hread
    obtain ⟨text, -, ht⟩ := List.mem_map.1 hread
    exact ⟨text, ht.symm⟩
  obtain ⟨slots, hs⟩ := exists_readSlots hreadable (s.reads paths.length) (List.replicate paths.length none)
  have hread : readAll s fs paths = .ok (slots.filterMap id) := by
    rw [readAll, hs]
    rfl
  have hmap := readAll_eq_ok hread
  rw [h, List.map_inj_right fun _ _ => Except.ok.inj] at hmap
  rw [hread, hmap]

end Stage

end DeclBundle
