import DeclBundle.Proofs.FileSystem.Replacement

namespace DeclBundle

def Entry.bare : Entry → Entry
  | file content _ => file content 0
  | directory _ => directory 0
  | link target => link target

namespace FileSystem

variable {fs fs' : FileSystem} {d l k : Location} {n : Name} {e : Entry} {content : ByteArray} {text : String}
  {u : Unit}

def outline (fs : FileSystem) (l : Location) : Option Entry :=
  (fs.get? l).map Entry.bare

theorem outline_eq_none_iff : fs.outline l = none ↔ fs.get? l = none := by
  simp [outline]

theorem exists_get?_iff_outline : (∃ e, fs.get? l = some e) ↔ fs.outline l ≠ none := by
  rw [← Option.ne_none_iff_exists', ne_eq, ne_eq, outline_eq_none_iff]

theorem outline_eq_directory_iff : fs.outline l = some (.directory 0) ↔ fs.isDirectoryAt l = true := by
  rw [outline, isDirectoryAt]
  cases fs.get? l with
  | none => simp
  | some e => cases e <;> simp [Entry.bare, Entry.isDirectory]

theorem outline_eq_file_iff :
    fs.outline l = some (.file content 0) ↔ ∃ mode, fs.get? l = some (.file content mode) := by
  rw [outline]
  cases fs.get? l with
  | none => simp
  | some e => cases e <;> simp [Entry.bare]

theorem outline_eq_link_iff : fs.outline l = some (.link text) ↔ fs.get? l = some (.link text) := by
  rw [outline]
  cases fs.get? l with
  | none => simp
  | some e => cases e <;> simp [Entry.bare]

theorem outline_put (h : fs.Takes l e) (k : Location) :
    (fs.put l e).outline k = if k = l then some e.bare else fs.outline k := by
  rw [outline, outline, get?_put h]
  split <;> rfl

theorem read_eq_of_outline (h : fs.outline l = some (.file content 0)) (h' : fs'.outline l = some (.file content 0)) :
    fs.read l.path = fs'.read l.path := by
  obtain ⟨mode, hm⟩ := outline_eq_file_iff.1 h
  obtain ⟨mode', hm'⟩ := outline_eq_file_iff.1 h'
  cases ha : accept l.path with
  | error err =>
    rw [FileSystem.read, FileSystem.read, find_path_of_error ha, find_path_of_error ha]
  | ok u =>
    rw [FileSystem.read, FileSystem.read, find_path ha hm (.inr rfl), find_path ha hm' (.inr rfl)]
    rfl

def laid (place : Location) (text : String) (k : Location) (x : Option Entry) : Option Entry :=
  if k = place then some (.file text.toUTF8 0)
  else if k <+: place ∧ x = none then some (.directory 0)
  else x

theorem laid_of_ne (hk : k ≠ d ++ [n]) (x : Option Entry) :
    laid (d ++ [n]) text k x = if k <+: d ∧ x = none then some (.directory 0) else x := by
  have hiff : k <+: d ++ [n] ↔ k <+: d := by
    rw [List.prefix_concat_iff]
    exact or_iff_right hk
  rw [laid, if_neg hk]
  simp only [hiff]

theorem outline_of_settled (hg : Grown fs fs' l) (hs : Settled fs fs' l (.ok u)) (hfree : fs.FreeOfLinks l)
    (k : Location) :
    fs'.outline k = if k <+: l ∧ fs.outline k = none then some (.directory 0) else fs.outline k := by
  have hd := hs.isDirectoryAt hg hfree
  split
  next hk => exact outline_eq_directory_iff.2 (isDirectoryAt_above hd hk.1)
  next hk =>
    cases hf : fs.get? k with
    | some e => rw [outline, outline, hg.kept k e hf, hf]
    | none =>
      rw [outline_eq_none_iff.2 hf, outline_eq_none_iff, Option.eq_none_iff_forall_ne_some]
      intro e he
      obtain ⟨-, i, hi, hlead⟩ := hg.made k e he hf
      obtain rfl := hlead.eq_of_free ((hg.freeOfLinks hfree).above hi)
      exact hk ⟨hi, outline_eq_none_iff.2 hf⟩

theorem outline_replace (hfree : fs.FreeOfLinks d)
    (h : fs.replace (Location.path (d ++ [n])) text = (fs', .ok ())) (k : Location) :
    fs'.outline k = laid (d ++ [n]) text k (fs.outline k) := by
  obtain ⟨hg, -⟩ := makeDirectories_path fs d
  rcases replace_path h with ⟨_, h, -⟩ | ⟨-, -, -, hs, j, hj, hr⟩
  · cases h
  · obtain rfl := hj.eq_of_free (hg.freeOfLinks hfree)
    by_cases hk : k = j ++ [n]
    · rw [laid, if_pos hk, hk, outline, hr.get?_place]
      rfl
    · rw [laid_of_ne hk, ← outline_of_settled hg hs hfree, outline, outline, hr.get?_eq, if_neg hk]

theorem write_path (ha : accept (Location.path (d ++ [n])) = .ok ()) (hd : fs.isDirectoryAt d = true)
    (hlink : ∀ text, fs.get? (d ++ [n]) ≠ some (.link text)) (content : ByteArray) :
    fs.write (Location.path (d ++ [n])) content =
      match fs.get? (d ++ [n]) with
      | none =>
        if n.isStorable then .ok (fs.put (d ++ [n]) (.file content fileMode)) else .error (.os (missing n))
      | some (.file _ mode) => .ok (fs.put (d ++ [n]) (.file content mode))
      | some _ => .error (.os .isDirectory) := by
  have hlead := leadsTo_self hd
  rw [write, locate, ha, Location.start_path, resolve_steps_path, Results.ok_bind]
  cases hn : fs.get? (d ++ [n]) with
  | none =>
    rw [hlead.resolve_concat_of_none hn]
    split <;> rfl
  | some e =>
    cases e with
    | link text => exact absurd hn (hlink text)
    | file content' mode' =>
      rw [hlead.resolve_append_downs (by simp) hn (.inr rfl)]
      rfl
    | directory mode' =>
      rw [hlead.resolve_append_downs (by simp) hn (.inr rfl)]
      rfl

theorem accept_of_write {p : Path} (h : fs.write p content = .ok fs') : accept p = .ok () := by
  rw [write, locate] at h
  cases ha : accept p with
  | ok u => rfl
  | error err => simp [ha] at h

theorem outline_write (hd : fs.isDirectoryAt d = true) (hlink : ∀ text, fs.get? (d ++ [n]) ≠ some (.link text))
    (h : fs.write (Location.path (d ++ [n])) content = .ok fs') (k : Location) :
    fs'.outline k = if k = d ++ [n] then some (.file content 0) else fs.outline k := by
  rw [write_path (accept_of_write h) hd hlink] at h
  split at h
  next hn =>
    split at h
    next hs =>
      cases h
      exact outline_put (takes_concat _ hd hs (by simp [isDirectoryAt, hn])) k
    next => cases h
  next content' mode hn =>
    cases h
    have hs := mem_name_of_get? hn n (by simp)
    exact outline_put (takes_concat _ hd hs (by simp [isDirectoryAt, hn, Entry.isDirectory])) k
  next => cases h

end FileSystem

end DeclBundle
