import DeclBundle.Declaration
import DeclBundle.Proofs.Text.Pattern
import DeclBundle.Proofs.Text.Pieces

/-!
Import lines and what is left without them. A text without its import lines is the text in which all
matches of one pattern are erased, and its pieces are those of the text, the import lines among them
emptied.
-/

namespace DeclBundle.Declaration

open Text Pieces

variable {text piece before rest : List Char}

theorem isBreak_iff {c : Char} : isBreak c = true ↔ c = '\r' ∨ c = '\n' := by
  simp [isBreak]

theorem isBreak_eq_false_iff {c : Char} : isBreak c = false ↔ c ≠ '\r' ∧ c ≠ '\n' := by
  simp [isBreak]

theorem isImport_iff : isImport piece = true ↔ ∃ c rest, piece = importWord ++ c :: rest := by
  rw [isImport, Bool.and_eq_true, List.isPrefixOf_iff_prefix, decide_eq_true_eq]
  constructor
  · rintro ⟨⟨rest, rfl⟩, hlength⟩
    cases rest with
    | nil => simp at hlength
    | cons c rest => exact ⟨c, rest, rfl⟩
  · rintro ⟨c, rest, rfl⟩
    exact ⟨List.prefix_append _ _, by simp⟩

theorem isBreak_of_mem_importWord {c : Char} (h : c ∈ importWord) : isBreak c = false := by
  simp only [importWord, List.mem_cons, List.not_mem_nil, or_false] at h
  rcases h with rfl | rfl | rfl | rfl | rfl | rfl <;> rfl

theorem isImport_blankImport (piece : List Char) : isImport (blankImport piece) = false := by
  rw [blankImport]
  split
  · rfl
  next h => simpa using h

theorem blankImport_of_not_isImport (h : isImport piece = false) : blankImport piece = piece := by
  rw [blankImport, if_neg (by simp [h])]

theorem isBreak_of_mem_blankImport (h : ∀ c ∈ piece, isBreak c = false) :
    ∀ c ∈ blankImport piece, isBreak c = false := by
  rw [blankImport]
  split
  · simp
  · exact h

theorem toList_stripImports (text : String) :
    (stripImports text).toList = ((cut isBreak text.toList).map blankImport).join := by
  rw [stripImports, String.toList_ofList]

theorem cut_stripImports (text : String) :
    cut isBreak (stripImports text).toList = (cut isBreak text.toList).map blankImport := by
  rw [toList_stripImports]
  exact cut_join_map (fun _ => isBreak_of_mem_blankImport) text.toList

theorem not_isImport_of_mem_stripImports (text : String)
    (h : piece ∈ (cut isBreak (stripImports text).toList).toList) : isImport piece = false := by
  rw [cut_stripImports, toList_map] at h
  obtain ⟨before, -, rfl⟩ := List.mem_map.1 h
  exact isImport_blankImport before

theorem stripImports_of_free {text : String}
    (h : ∀ piece ∈ (cut isBreak text.toList).toList, isImport piece = false) : stripImports text = text := by
  have hkept : (cut isBreak text.toList).map blankImport = cut isBreak text.toList :=
    map_of_forall fun piece hp => blankImport_of_not_isImport (h piece hp)
  rw [← String.toList_inj, toList_stripImports, hkept, join_cut]

theorem not_mem_stripImports (text : String) (c : Char) (rest : List Char) :
    importWord ++ c :: rest ∉ (cut isBreak (stripImports text).toList).toList := by
  intro h
  have hnot := not_isImport_of_mem_stripImports text h
  rw [isImport_iff.2 ⟨c, rest, rfl⟩] at hnot
  cases hnot

theorem stripImports_stripImports (text : String) : stripImports (stripImports text) = stripImports text :=
  stripImports_of_free fun _ => not_isImport_of_mem_stripImports text

def importLine : Pattern :=
  .lineStart :: (importWord.map .char ++ [.run (!isBreak ·), .lineEnd])

theorem ends_importLine (before after : List Char) : importLine.ends ⟨before, after⟩ =
    if Cursor.atLineStart ⟨before, after⟩ then
      Pattern.ends (importWord.map .char ++ [.run (!isBreak ·), .lineEnd]) ⟨before, after⟩ else [] := by
  rw [importLine, Pattern.ends, Item.ends]
  split <;> simp

theorem ends_importLine_inside {c : Char} (hc : isBreak c = false) (before after : List Char) :
    importLine.ends ⟨c :: before, after⟩ = [] := by
  have hstart : Cursor.atLineStart ⟨c :: before, after⟩ = false := by
    obtain ⟨hreturn, hfeed⟩ := isBreak_eq_false_iff.1 hc
    simp [Cursor.atLineStart, hreturn, hfeed]
  rw [ends_importLine, if_neg (by simp [hstart])]

theorem ends_importLine_of_no_word {after : List Char} (h : ¬importWord <+: after) (before : List Char) :
    importLine.ends ⟨before, after⟩ = [] := by
  rw [ends_importLine, Pattern.ends_word_of_no_match h]
  split <;> rfl

theorem ends_importLine_bare (hrest : ∀ c ∈ rest.head?, isBreak c = true) (before : List Char) :
    importLine.ends ⟨before, importWord ++ rest⟩ = [] := by
  have hrun : runs (!isBreak ·) (importWord.reverse ++ before) rest = [] := by
    cases rest with
    | nil => rfl
    | cons c rest => rw [runs, if_neg (by simp [hrest c rfl])]
  rw [ends_importLine, Pattern.ends_word, Pattern.ends, Item.ends, hrun]
  split <;> rfl

theorem atLineEnd_of_piece (hne : piece ≠ []) (hpiece : ∀ c ∈ piece, isBreak c = false)
    (hrest : ∀ c ∈ rest.head?, isBreak c = true) (before : List Char) :
    Cursor.atLineEnd ⟨piece.reverse ++ before, rest⟩ = true := by
  obtain ⟨front, last, rfl⟩ := (List.eq_nil_or_concat piece).resolve_left hne
  have hlast : last ≠ '\r' := by
    rintro rfl
    cases hpiece '\r' (by simp)
  cases rest with
  | nil => rfl
  | cons c rest =>
    rcases isBreak_iff.1 (hrest c rfl) with rfl | rfl
    · rfl
    · simp [Cursor.atLineEnd, hlast]

theorem exists_ends_importLine {c : Char} {line : List Char} (hbefore : ∀ d ∈ before.head?, isBreak d = true)
    (hpiece : ∀ d ∈ importWord ++ c :: line, isBreak d = false) (hrest : ∀ d ∈ rest.head?, isBreak d = true) :
    ∃ others, importLine.ends ⟨before, importWord ++ (c :: line ++ rest)⟩ =
      ⟨(importWord ++ c :: line).reverse ++ before, rest⟩ :: others := by
  have hstart : Cursor.atLineStart ⟨before, importWord ++ (c :: line ++ rest)⟩ = true := by
    cases before with
    | nil => rfl
    | cons d before =>
      rcases isBreak_iff.1 (hbefore d rfl) with rfl | rfl <;> rfl
  have hfree (d : Char) (hd : d ∈ c :: line) : (!isBreak d) = true := by
    simp [hpiece d (List.mem_append_right _ hd)]
  have hafter : ∀ d ∈ rest.head?, (!isBreak d) = false := by simpa using hrest
  -- the first run that is tried takes the whole line, and the line ends there
  obtain ⟨others, hruns⟩ := Pattern.exists_runs_eq_cons (fun d hd => hfree d (List.mem_cons_of_mem _ hd))
    (hfree c List.mem_cons_self) hafter (importWord.reverse ++ before)
  have hend := atLineEnd_of_piece (by simp) hpiece hrest before
  rw [List.reverse_append, List.append_assoc] at hend ⊢
  have hfirst : Pattern.ends [.lineEnd] ⟨(c :: line).reverse ++ (importWord.reverse ++ before), rest⟩ =
      [⟨(c :: line).reverse ++ (importWord.reverse ++ before), rest⟩] := by
    rw [Pattern.ends, Item.ends, if_pos hend]
    rfl
  refine ⟨others.flatMap (Pattern.ends [.lineEnd]), ?_⟩
  rw [ends_importLine, if_pos hstart, Pattern.ends_word, Pattern.ends, Item.ends, hruns, List.flatMap_cons, hfirst]
  rfl

theorem erase_importLine_inside {c : Char} (hc : isBreak c = false) (hpiece : ∀ d ∈ piece, isBreak d = false)
    (before rest : List Char) : importLine.erase ⟨c :: before, piece ++ rest⟩ =
      piece ++ importLine.erase ⟨piece.reverse ++ c :: before, rest⟩ := by
  induction piece generalizing c before with
  | nil => rfl
  | cons d piece ih =>
    rw [List.cons_append, Pattern.erase_of_ends_eq_nil (ends_importLine_inside hc before _),
      ih (hpiece d List.mem_cons_self) fun e he => hpiece e (List.mem_cons_of_mem _ he)]
    simp

theorem ends_importLine_of_not_isImport (himport : isImport piece = false)
    (hrest : ∀ c ∈ rest.head?, isBreak c = true) (before : List Char) :
    importLine.ends ⟨before, piece ++ rest⟩ = [] := by
  by_cases hword : importWord <+: piece ++ rest
  · rcases List.prefix_or_prefix_of_prefix hword (List.prefix_append piece rest) with h | h
    · obtain ⟨tail, rfl⟩ := h
      cases tail with
      | nil => simpa using ends_importLine_bare hrest before
      | cons c tail => simp [isImport_iff.2 ⟨c, tail, rfl⟩] at himport
    · obtain ⟨tail, htail⟩ := h
      rw [← htail, List.prefix_append_right_inj] at hword
      cases tail with
      | nil => simpa [← htail] using ends_importLine_bare hrest before
      | cons c tail =>
        -- the word would go on over the end of the piece
        obtain ⟨more, rfl⟩ := hword
        have hc := hrest c rfl
        simp [isBreak_of_mem_importWord (c := c) (by simp [← htail])] at hc
  · exact ends_importLine_of_no_word hword before

theorem erase_importLine_piece (hbefore : ∀ c ∈ before.head?, isBreak c = true)
    (hpiece : ∀ c ∈ piece, isBreak c = false) (hrest : ∀ c ∈ rest.head?, isBreak c = true) :
    importLine.erase ⟨before, piece ++ rest⟩ =
      blankImport piece ++ importLine.erase ⟨piece.reverse ++ before, rest⟩ := by
  cases himport : isImport piece with
  | true =>
    obtain ⟨c, line, rfl⟩ := isImport_iff.1 himport
    obtain ⟨others, h⟩ := exists_ends_importLine hbefore hpiece hrest
    have hlt : rest.length < (importWord ++ (c :: line ++ rest)).length := by
      simp only [List.length_append, List.length_cons]
      omega
    rw [blankImport, if_pos himport, List.append_assoc, Pattern.erase_of_ends_eq_cons h hlt, List.nil_append]
  | false =>
    rw [blankImport_of_not_isImport himport]
    cases piece with
    | nil => rfl
    | cons c piece =>
      have hends := ends_importLine_of_not_isImport himport hrest before
      rw [List.cons_append] at hends ⊢
      rw [Pattern.erase_of_ends_eq_nil hends,
        erase_importLine_inside (hpiece c List.mem_cons_self) fun d hd => hpiece d (List.mem_cons_of_mem _ hd)]
      simp

theorem erase_importLine_join {p : Pieces} (hpieces : ∀ piece ∈ p.toList, ∀ c ∈ piece, isBreak c = false)
    (hseparators : ∀ c ∈ p.separators, isBreak c = true) (hbefore : ∀ c ∈ before.head?, isBreak c = true) :
    importLine.erase ⟨before, p.join⟩ = (p.map blankImport).join := by
  obtain ⟨first, rest⟩ := p
  induction rest generalizing first before with
  | nil =>
    have h : importLine.erase ⟨before, first ++ []⟩ = _ :=
      erase_importLine_piece hbefore (hpieces first List.mem_cons_self) (by simp)
    simpa [Pieces.map] using h
  | cons head rest ih =>
    obtain ⟨s, piece⟩ := head
    have hs : isBreak s = true := hseparators s List.mem_cons_self
    have hfirst : ¬importWord <+: s :: join ⟨piece, rest⟩ := by
      intro h
      obtain rfl := (List.cons_prefix_cons.1 h).1
      cases hs
    rw [join_cons_rest, erase_importLine_piece hbefore (hpieces first List.mem_cons_self) (by simp [hs]),
      Pattern.erase_of_ends_eq_nil (ends_importLine_of_no_word hfirst _),
      ih (by simp [hs]) piece (fun q hq => hpieces q (List.mem_cons_of_mem _ hq))
        fun c hc => hseparators c (List.mem_cons_of_mem _ hc)]
    simp [Pieces.map, join_cons_rest]

theorem erase_importLine (text : String) : importLine.erase ⟨[], text.toList⟩ = (stripImports text).toList := by
  have h : importLine.erase ⟨[], (cut isBreak text.toList).join⟩ = _ :=
    erase_importLine_join (fun _ => not_sep_of_mem_cut) (fun _ => sep_of_mem_separators) (by simp)
  rwa [join_cut, ← toList_stripImports] at h

/-- What is left of a text is what the pattern does not match. Its pieces are those of the text with
empty ones for the import lines, and the breaks between them are the same; so no import line is left,
and nothing is left to do. -/
theorem stripImports_blanks (text : String) :
    (stripImports text).toList = importLine.erase ⟨[], text.toList⟩ ∧
    cut isBreak (stripImports text).toList = (cut isBreak text.toList).map blankImport ∧
    (stripImports text).toList.filter isBreak = text.toList.filter isBreak ∧
    (∀ c rest, importWord ++ c :: rest ∉ (cut isBreak (stripImports text).toList).toList) ∧
    stripImports (stripImports text) = stripImports text := by
  refine ⟨(erase_importLine text).symm, cut_stripImports text, ?_, not_mem_stripImports text,
    stripImports_stripImports text⟩
  rw [← separators_cut, cut_stripImports, separators_map, separators_cut]

example : stripImports "import a\rimport\r\n import b\nimport c" = "\rimport\r\n import b\n" := by
  decide +kernel

end DeclBundle.Declaration
