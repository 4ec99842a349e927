import DeclBundle.Proofs.Declaration.Imports

/-!
How many lines a text has without its import lines. None is won. One is lost where nothing ends the
last line and it is an import line, and one where an import line stands between a carriage return and a
line feed, which then end one line together.
-/

namespace DeclBundle.Declaration

open Text Pieces

variable {p : Pieces} {piece rest : List Char} {text : String}

def lineEnds : List Char → Nat
  | [] => 0
  | c :: rest => lineEnds rest + if Cursor.atLineStart ⟨[c], rest⟩ then 1 else 0

def unended (isEnd : Char → Bool) (text : List Char) : Nat :=
  if text.getLast?.all isEnd then 0 else 1

def lineCount (text : List Char) : Nat :=
  lineEnds text + unended isBreak text

def feedCount (text : List Char) : Nat :=
  text.count '\n' + unended (· = '\n') text

theorem atLineStart_singleton {c : Char} : Cursor.atLineStart ⟨[c], rest⟩ = true ↔
    c = '\n' ∨ c = '\r' ∧ rest.head? ≠ some '\n' := by
  simp [Cursor.atLineStart]

theorem lineEnds_append_of_forall (h : ∀ c ∈ piece, isBreak c = false) (rest : List Char) :
    lineEnds (piece ++ rest) = lineEnds rest := by
  induction piece with
  | nil => rfl
  | cons c piece ih =>
    obtain ⟨hreturn, hfeed⟩ := isBreak_eq_false_iff.1 (h c List.mem_cons_self)
    rw [List.cons_append, lineEnds, ih fun d hd => h d (List.mem_cons_of_mem _ hd)]
    simp [Cursor.atLineStart, hreturn, hfeed]

theorem lineEnds_of_forall (h : ∀ c ∈ piece, isBreak c = false) : lineEnds piece = 0 := by
  have happend := lineEnds_append_of_forall h []
  rwa [List.append_nil] at happend

def flanked : List (Char × List Char) → Nat
  | [] => 0
  | (s, line) :: rest =>
    flanked rest + if s = '\r' ∧ isImport line = true ∧ (rest.map Prod.fst).head? = some '\n' then 1 else 0

theorem flanked_eq_zero_iff {pieces : List (Char × List Char)} :
    flanked pieces = 0 ↔ ∀ line next, [('\r', line), ('\n', next)] <:+: pieces → isImport line = false := by
  induction pieces with
  | nil => simp [flanked]
  | cons head pieces ih =>
    obtain ⟨s, line⟩ := head
    rw [flanked, Nat.add_eq_zero_iff, ih]
    constructor
    · rintro ⟨hrest, hfirst⟩ cur next h
      rcases List.infix_cons_iff.1 h with h | h
      · obtain ⟨hhead, more, rfl⟩ := List.cons_prefix_cons.1 h
        obtain ⟨rfl, rfl⟩ := Prod.mk.inj hhead
        simpa using hfirst
      · exact hrest cur next h
    · intro h
      refine ⟨fun cur next hinfix => h cur next (List.infix_cons_iff.2 (.inr hinfix)), if_neg ?_⟩
      rintro ⟨rfl, himport, hnext⟩
      rw [List.head?_map] at hnext
      obtain ⟨⟨s, next⟩, hhead, rfl⟩ := Option.map_eq_some_iff.1 hnext
      obtain ⟨more, rfl⟩ := List.head?_eq_some_iff.1 hhead
      rw [h line next (List.prefix_append [_, _] more).isInfix] at himport
      cases himport

theorem atLineStart_blankImport (s : Char) (p : Pieces) :
    (if Cursor.atLineStart ⟨[s], p.join⟩ then 1 else 0) =
      (if Cursor.atLineStart ⟨[s], (p.map blankImport).join⟩ then 1 else 0) +
        if s = '\r' ∧ isImport p.first = true ∧ p.separators.head? = some '\n' then 1 else 0 := by
  have hmap : (p.map blankImport).join.head? = (blankImport p.first).head?.or p.separators.head? := by
    rw [head?_join, separators_map, Pieces.map]
  simp only [atLineStart_singleton, hmap, head?_join]
  cases himport : isImport p.first with
  | false =>
    rw [blankImport_of_not_isImport himport]
    simp
  | true =>
    obtain ⟨c, line, hline⟩ := isImport_iff.1 himport
    have hword : p.first.head? = some 'i' := by
      rw [hline]
      rfl
    rw [blankImport, if_pos himport, hword]
    by_cases hs : s = '\r'
    · by_cases hnext : p.separators.head? = some '\n'
      · simp [hs, hnext]
      · simp [hs, hnext]
    · simp [hs]

theorem lineEnds_join (hpieces : ∀ piece ∈ p.toList, ∀ c ∈ piece, isBreak c = false) :
    lineEnds p.join = lineEnds (p.map blankImport).join + flanked p.rest := by
  obtain ⟨first, rest⟩ := p
  induction rest generalizing first with
  | nil =>
    have hfirst := hpieces first List.mem_cons_self
    simp [Pieces.map, flanked, lineEnds_of_forall hfirst, lineEnds_of_forall (isBreak_of_mem_blankImport hfirst)]
  | cons head rest ih =>
    obtain ⟨s, piece⟩ := head
    have hfirst := hpieces first List.mem_cons_self
    have hrest : lineEnds (join ⟨piece, rest⟩) = lineEnds (Pieces.map blankImport ⟨piece, rest⟩).join + flanked rest :=
      ih piece fun q hq => hpieces q (List.mem_cons_of_mem _ hq)
    have hmap : (Pieces.map blankImport ⟨first, (s, piece) :: rest⟩).join =
        blankImport first ++ s :: (Pieces.map blankImport ⟨piece, rest⟩).join := by
      simp [Pieces.map, join_cons_rest]
    have hbreak : (if Cursor.atLineStart ⟨[s], join ⟨piece, rest⟩⟩ then 1 else 0) =
        (if Cursor.atLineStart ⟨[s], (Pieces.map blankImport ⟨piece, rest⟩).join⟩ then 1 else 0) +
          if s = '\r' ∧ isImport piece = true ∧ (rest.map Prod.fst).head? = some '\n' then 1 else 0 :=
      atLineStart_blankImport s ⟨piece, rest⟩
    rw [join_cons_rest, hmap, lineEnds_append_of_forall hfirst,
      lineEnds_append_of_forall (isBreak_of_mem_blankImport hfirst), lineEnds, lineEnds, hbreak, hrest, flanked]
    omega

theorem unended_join {isEnd : Char → Bool} (hpieces : ∀ piece ∈ p.toList, ∀ c ∈ piece, isEnd c = false) :
    unended isEnd p.join = if p.last = [] ∧ p.separators.getLast?.all isEnd = true then 0 else 1 := by
  rw [unended, getLast?_join]
  by_cases hlast : p.last = []
  · simp [hlast]
  · have hfree := hpieces p.last p.last_mem _ (List.getLast_mem hlast)
    simp [hlast, List.getLast?_eq_some_getLast hlast, hfree]

theorem unended_stripImports {isEnd : Char → Bool} (hend : ∀ c, isEnd c = true → isBreak c = true)
    (hp : cut isBreak text.toList = p) : unended isEnd text.toList = unended isEnd (stripImports text).toList +
      if isImport p.last = true ∧ p.separators.getLast?.all isEnd = true then 1 else 0 := by
  have htext : text.toList = p.join := by rw [← hp, join_cut]
  have hfree : ∀ piece ∈ p.toList, ∀ c ∈ piece, isBreak c = false := by
    rw [← hp]
    exact fun _ => not_sep_of_mem_cut
  have hnot (c : Char) (hc : isBreak c = false) : isEnd c = false := by
    rw [Bool.eq_false_iff]
    intro h
    rw [hend c h] at hc
    cases hc
  have hblanked : ∀ piece ∈ (p.map blankImport).toList, ∀ c ∈ piece, isEnd c = false := by
    rw [toList_map, List.forall_mem_map]
    exact fun piece hpiece c hc => hnot c (isBreak_of_mem_blankImport (hfree piece hpiece) c hc)
  rw [toList_stripImports, hp, htext, unended_join fun piece hpiece c hc => hnot c (hfree piece hpiece c hc),
    unended_join hblanked, last_map, separators_map]
  cases himport : isImport p.last with
  | false => simp [blankImport_of_not_isImport himport]
  | true =>
    have hne : p.last ≠ [] := by
      obtain ⟨c, line, hline⟩ := isImport_iff.1 himport
      rw [hline]
      exact List.cons_ne_nil _ _
    rw [blankImport, if_pos himport, if_neg (by simp [hne])]
    cases p.separators.getLast?.all isEnd <;> rfl

theorem lineEnds_stripImports (hp : cut isBreak text.toList = p) :
    lineEnds text.toList = lineEnds (stripImports text).toList + flanked p.rest := by
  have h : lineEnds (cut isBreak text.toList).join = _ := lineEnds_join fun _ => not_sep_of_mem_cut
  rwa [join_cut, ← toList_stripImports, hp] at h

theorem lineCount_stripImports (hp : cut isBreak text.toList = p) : lineCount text.toList =
    lineCount (stripImports text).toList + flanked p.rest + if isImport p.last = true then 1 else 0 := by
  have hends := lineEnds_stripImports hp
  have hlast : unended isBreak text.toList = _ := unended_stripImports (fun _ => id) hp
  have hall : p.separators.getLast?.all isBreak = true := by
    rw [← hp, Option.all_eq_true_iff_get]
    exact fun h => sep_of_mem_separators (List.mem_of_getLast? (Option.some_get h).symm)
  simp only [hall, and_true] at hlast
  rw [lineCount, lineCount]
  omega

theorem feedCount_stripImports (hp : cut isBreak text.toList = p) : feedCount text.toList =
    feedCount (stripImports text).toList +
      if isImport p.last = true ∧ p.separators.getLast? ≠ some '\r' then 1 else 0 := by
  have hfeeds : (stripImports text).toList.count '\n' = text.toList.count '\n' := by
    have hbreak : isBreak '\n' = true := rfl
    rw [← List.count_filter hbreak, ← separators_cut, cut_stripImports, separators_map, separators_cut,
      List.count_filter hbreak]
  have hlast : unended (· = '\n') text.toList = _ := unended_stripImports (by simp [isBreak]) hp
  have hreturn : p.separators.getLast?.all (· = '\n') = true ↔ p.separators.getLast? ≠ some '\r' := by
    cases hc : p.separators.getLast? with
    | none => simp
    | some c =>
      rw [← hp] at hc
      rcases isBreak_iff.1 (sep_of_mem_separators (List.mem_of_getLast? hc)) with rfl | rfl <;> simp
  simp only [hreturn] at hlast
  rw [feedCount, feedCount, hfeeds]
  omega

/-- Lines are kept exactly where no import line stands between a carriage return and a line feed and the
text does not end in an import line that nothing ends. If line feeds alone end lines, only the latter
counts, and not after a carriage return. -/
theorem lineCount_stripImports_iff (text : String) :
    let pieces := cut isBreak text.toList
    (feedCount (stripImports text).toList = feedCount text.toList ↔
      (isImport pieces.last = true → pieces.separators.getLast? = some '\r')) ∧
    (lineEnds (stripImports text).toList = lineEnds text.toList ↔
      ∀ line next, [('\r', line), ('\n', next)] <:+: pieces.rest → isImport line = false) ∧
    (lineCount (stripImports text).toList = lineCount text.toList ↔ isImport pieces.last = false ∧
      ∀ line next, [('\r', line), ('\n', next)] <:+: pieces.rest → isImport line = false) := by
  intro pieces
  have hp : cut isBreak text.toList = pieces := rfl
  rw [feedCount_stripImports hp, lineEnds_stripImports hp, lineCount_stripImports hp, ← flanked_eq_zero_iff]
  refine ⟨?_, ?_, ?_⟩
  · cases himport : isImport pieces.last with
    | false => simp
    | true => simp
  · omega
  · cases himport : isImport pieces.last with
    | false => simp
    | true =>
      simp
      omega

theorem not_forall_lineCount_kept :
    (¬∀ text : String, feedCount (stripImports text).toList = feedCount text.toList) ∧
    (¬∀ text : String, lineEnds (stripImports text).toList = lineEnds text.toList) ∧
    ¬∀ text : String, lineCount (stripImports text).toList = lineCount text.toList := by
  have hlost : feedCount (stripImports "\rimport a\nimport b").toList ≠ feedCount "\rimport a\nimport b".toList ∧
      lineEnds (stripImports "\rimport a\nimport b").toList ≠ lineEnds "\rimport a\nimport b".toList ∧
      lineCount (stripImports "\rimport a\nimport b").toList ≠ lineCount "\rimport a\nimport b".toList := by
    decide +kernel
  exact ⟨fun h => hlost.1 (h _), fun h => hlost.2.1 (h _), fun h => hlost.2.2 (h _)⟩

end DeclBundle.Declaration
