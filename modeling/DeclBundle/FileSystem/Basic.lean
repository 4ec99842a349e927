import DeclBundle.Location

/-!
A tree of files, directories and links, seen from a working directory. The tree is kept flat: every
place that holds something, with what it holds. `Sound` says that this is a tree, and `put`, `erase`
and `clear` are the only changes, each pinned down by what `get?` finds after it.
-/

namespace DeclBundle

inductive Entry
  | file (content : ByteArray) (mode : Nat)
  | directory (mode : Nat)
  | link (target : String)

namespace Entry

instance : DecidableEq Entry
  | file content mode, file content' mode' =>
    @decidable_of_iff (file content mode = file content' mode') (content = content' ∧ mode = mode')
      (Iff.of_eq (file.injEq ..).symm) (@instDecidableAnd _ _ (content.decEq content') _)
  | directory mode, directory mode' =>
    decidable_of_iff (mode = mode') (Iff.of_eq (directory.injEq ..).symm)
  | link target, link target' =>
    decidable_of_iff (target = target') (Iff.of_eq (link.injEq ..).symm)
  | file .., directory _ => isFalse nofun
  | file .., link _ => isFalse nofun
  | directory _, file .. => isFalse nofun
  | directory _, link _ => isFalse nofun
  | link _, file .. => isFalse nofun
  | link _, directory _ => isFalse nofun

def isDirectory : Entry → Bool
  | directory _ => true
  | _ => false

def isFile : Entry → Bool
  | file _ _ => true
  | _ => false

def isLink : Entry → Bool
  | link _ => true
  | _ => false

end Entry

def Name.isStorable (n : Name) : Bool :=
  n.text.utf8ByteSize ≤ 255 && !n.text.toList.contains '\x00'

namespace FileSystem

abbrev Table := List (Location × Entry)

/-- Each place is listed once, everything lies in a directory, and all names can be held. The root
is not listed. -/
structure Sound (table : Table) : Prop where
  nodup : (table.map Prod.fst).Nodup
  closed : ∀ l e, (l, e) ∈ table →
    l.dropLast = [] ∨ ∃ mode, (l.dropLast, Entry.directory mode) ∈ table
  storable : ∀ l e, (l, e) ∈ table → l ≠ [] ∧ ∀ n ∈ l, n.isStorable = true

theorem Sound.nil : Sound [] :=
  ⟨.nil, by simp, by simp⟩

end FileSystem

structure FileSystem where
  cwd : Location
  table : FileSystem.Table
  sound : FileSystem.Sound table

namespace FileSystem

def empty : FileSystem := ⟨[], [], .nil⟩

instance : Inhabited FileSystem := ⟨empty⟩

def rootEntry : Entry := .directory 0o755

def get? (fs : FileSystem) (l : Location) : Option Entry :=
  if l = [] then some rootEntry else (fs.table.find? (·.1 = l)).map Prod.snd

def isDirectoryAt (fs : FileSystem) (l : Location) : Bool :=
  (fs.get? l).any Entry.isDirectory

def isOccupied (fs : FileSystem) (l : Location) : Bool :=
  fs.table.any (·.1.isBelow l)

theorem entry_unique {table : Table} (h : (table.map Prod.fst).Nodup) {l : Location} {e e' : Entry}
    (he : (l, e) ∈ table) (he' : (l, e') ∈ table) : e = e' := by
  induction table with
  | nil => cases he
  | cons p table ih =>
    rw [List.map_cons, List.nodup_cons] at h
    rcases List.mem_cons.1 he with hp | ht
    · rcases List.mem_cons.1 he' with hp' | ht'
      · exact (Prod.mk.inj (hp.trans hp'.symm)).2
      · exact absurd (List.mem_map.2 ⟨(l, e'), ht', by rw [← hp]⟩) h.1
    · rcases List.mem_cons.1 he' with hp' | ht'
      · exact absurd (List.mem_map.2 ⟨(l, e), ht, by rw [← hp']⟩) h.1
      · exact ih h.2 ht ht'

theorem get?_eq_some_iff {fs : FileSystem} {l : Location} {e : Entry} (hl : l ≠ []) :
    fs.get? l = some e ↔ (l, e) ∈ fs.table := by
  rw [get?, if_neg hl, Option.map_eq_some_iff]
  constructor
  · rintro ⟨⟨k, e'⟩, hf, rfl⟩
    have hk := List.find?_some hf
    rw [decide_eq_true_eq] at hk
    subst hk
    exact List.mem_of_find?_eq_some hf
  · intro h
    cases hf : fs.table.find? (·.1 = l) with
    | none => simpa using List.find?_eq_none.1 hf _ h
    | some p =>
      obtain ⟨k, e'⟩ := p
      have hk := List.find?_some hf
      rw [decide_eq_true_eq] at hk
      subst hk
      exact ⟨_, rfl, entry_unique fs.sound.nodup (List.mem_of_find?_eq_some hf) h⟩

theorem isDirectoryAt_iff {fs : FileSystem} {l : Location} :
    fs.isDirectoryAt l = true ↔ l = [] ∨ ∃ mode, (l, Entry.directory mode) ∈ fs.table := by
  by_cases hl : l = []
  · simp [isDirectoryAt, get?, hl, rootEntry, Entry.isDirectory]
  · simp only [isDirectoryAt, hl, false_or, Option.any_eq_true]
    constructor
    · rintro ⟨e, he, hd⟩
      cases e with
      | directory mode => exact ⟨mode, (get?_eq_some_iff hl).1 he⟩
      | _ => simp [Entry.isDirectory] at hd
    · rintro ⟨mode, h⟩
      exact ⟨_, (get?_eq_some_iff hl).2 h, rfl⟩

/-- A place takes an entry if it lies in a directory and has a name that can be held. Only another
directory can take the place of one that is not empty. -/
structure Takes (fs : FileSystem) (l : Location) (e : Entry) : Prop where
  inside : fs.isDirectoryAt l.dropLast = true
  named : ∃ n, l.getLast? = some n ∧ n.isStorable = true
  roomy : e.isDirectory = true ∨ fs.isOccupied l = false

instance (fs : FileSystem) (l : Location) (e : Entry) : Decidable (fs.Takes l e) :=
  decidable_of_iff
    (fs.isDirectoryAt l.dropLast = true ∧ l.getLast?.any Name.isStorable = true ∧
      (e.isDirectory = true ∨ fs.isOccupied l = false))
    ⟨fun ⟨a, b, c⟩ => ⟨a, by simpa [Option.any_eq_true] using b, c⟩,
      fun ⟨a, b, c⟩ => ⟨a, by simpa [Option.any_eq_true] using b, c⟩⟩

theorem isBelow_iff {l base : Location} : l.isBelow base = true ↔ base <+: l ∧ base ≠ l := by
  simp only [Location.isBelow, Bool.and_eq_true, List.isPrefixOf_iff_prefix, decide_eq_true_eq]
  constructor
  · rintro ⟨h, hl⟩
    exact ⟨h, fun he => by simp [he] at hl⟩
  · rintro ⟨h, hn⟩
    refine ⟨h, ?_⟩
    rcases Nat.lt_or_ge base.length l.length with hl | hl
    · exact hl
    · exact absurd (h.eq_of_length (Nat.le_antisymm h.length_le hl)) hn

theorem mem_name_of_get? {fs : FileSystem} {l : Location} {e : Entry} (h : fs.get? l = some e) :
    ∀ n ∈ l, n.isStorable = true := by
  by_cases hl : l = []
  · simp [hl]
  · exact (fs.sound.storable l e ((get?_eq_some_iff hl).1 h)).2

theorem Sound.put {fs : FileSystem} {l : Location} {e : Entry} (h : fs.Takes l e) :
    Sound ((l, e) :: fs.table.filter (·.1 ≠ l)) := by
  obtain ⟨n, hn, hs⟩ := h.named
  have hl : l ≠ [] := by
    rintro rfl
    simp at hn
  have hnames : ∀ m ∈ l, m.isStorable = true := by
    obtain ⟨k, rfl⟩ : ∃ k, l = k ++ [n] := by
      rw [List.getLast?_eq_some_iff] at hn
      exact hn
    intro m hm
    rcases List.mem_append.1 hm with hm | hm
    · have hd := h.inside
      rw [List.dropLast_concat] at hd
      rcases isDirectoryAt_iff.1 hd with rfl | ⟨mode, hk⟩
      · cases hm
      · exact (fs.sound.storable k _ hk).2 m hm
    · rwa [List.mem_singleton.1 hm]
  have hself : l.dropLast ≠ l := by
    intro heq
    have := congrArg List.length heq
    have : 0 < l.length := List.length_pos_iff.2 hl
    simp only [List.length_dropLast] at *
    omega
  constructor
  · rw [List.map_cons, List.nodup_cons]
    constructor
    · simp
    · exact fs.sound.nodup.sublist (List.filter_sublist.map _)
  · intro k e' hk
    rcases List.mem_cons.1 hk with heq | hk
    · obtain ⟨rfl, rfl⟩ := Prod.mk.inj heq
      rcases isDirectoryAt_iff.1 h.inside with hd | ⟨mode, hd⟩
      · exact .inl hd
      · refine .inr ⟨mode, List.mem_cons_of_mem _ (List.mem_filter.2 ⟨hd, ?_⟩)⟩
        simpa using hself
    · have hk := (List.mem_filter.1 hk).1
      rcases fs.sound.closed k e' hk with hd | ⟨mode, hd⟩
      · exact .inl hd
      · by_cases hkl : k.dropLast = l
        · rcases h.roomy with hdir | hocc
          · cases e with
            | directory mode' => exact .inr ⟨mode', by rw [hkl]; exact List.mem_cons_self⟩
            | _ => simp [Entry.isDirectory] at hdir
          · have hb : k.isBelow l = true := by
              rw [isBelow_iff, ← hkl]
              refine ⟨List.dropLast_prefix k, fun heq => ?_⟩
              have := congrArg List.length heq
              have := List.length_pos_iff.2 (fs.sound.storable k e' hk).1
              simp only [List.length_dropLast] at *
              omega
            have : fs.isOccupied l = true := List.any_eq_true.2 ⟨_, hk, hb⟩
            simp [hocc] at this
        · exact .inr ⟨mode, List.mem_cons_of_mem _ (List.mem_filter.2 ⟨hd, by simpa using hkl⟩)⟩
  · intro k e' hk
    rcases List.mem_cons.1 hk with heq | hk
    · obtain ⟨rfl, rfl⟩ := Prod.mk.inj heq
      exact ⟨hl, hnames⟩
    · exact fs.sound.storable k e' (List.mem_filter.1 hk).1

def put (fs : FileSystem) (l : Location) (e : Entry) : FileSystem :=
  if h : fs.Takes l e then ⟨fs.cwd, (l, e) :: fs.table.filter (·.1 ≠ l), .put h⟩ else fs

theorem Sound.filter {table : Table} (h : Sound table) (gone : Location → Bool)
    (hgone : ∀ l : Location, gone l.dropLast = true → gone l = true) :
    Sound (table.filter (!gone ·.1)) := by
  constructor
  · exact h.nodup.sublist (List.filter_sublist.map _)
  · intro l e hl
    obtain ⟨hl, hk⟩ := List.mem_filter.1 hl
    rcases h.closed l e hl with hd | ⟨mode, hd⟩
    · exact .inl hd
    · refine .inr ⟨mode, List.mem_filter.2 ⟨hd, ?_⟩⟩
      cases hg : gone l.dropLast with
      | false => rfl
      | true => simp [hgone l hg] at hk
  · intro l e hl
    exact h.storable l e (List.mem_filter.1 hl).1

theorem isPrefixOf_of_dropLast {base l : Location} (h : base.isPrefixOf l.dropLast = true) :
    base.isPrefixOf l = true := by
  rw [List.isPrefixOf_iff_prefix] at *
  exact h.trans (List.dropLast_prefix l)

theorem isBelow_of_dropLast {base l : Location}
    (h : Location.isBelow l.dropLast base = true) : l.isBelow base = true := by
  simp only [Location.isBelow, Bool.and_eq_true, decide_eq_true_eq, List.length_dropLast] at *
  exact ⟨isPrefixOf_of_dropLast h.1, by omega⟩

def erase (fs : FileSystem) (l : Location) : FileSystem :=
  ⟨fs.cwd, fs.table.filter (!l.isPrefixOf ·.1),
    fs.sound.filter (l.isPrefixOf ·) fun _ => isPrefixOf_of_dropLast⟩

def clear (fs : FileSystem) (l : Location) : FileSystem :=
  ⟨fs.cwd, fs.table.filter (!·.1.isBelow l),
    fs.sound.filter (·.isBelow l) fun _ => isBelow_of_dropLast⟩

end FileSystem

end DeclBundle
