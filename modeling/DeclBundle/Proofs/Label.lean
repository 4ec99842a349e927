import DeclBundle.Manifest.Label
import DeclBundle.Proofs.Text.Span

/-!
Where the search for a key's value ends. It finds the first line that begins with the key and an equals
sign, blanks left out, and marks what follows on that line without the blanks around it.
-/

namespace DeclBundle.Label

open Text

variable {text key line before after body value front opening left core right : List Char}
  {ls rest : List (List Char)} {span : Span} {offset : Nat}

structure IsLine (text before line after : List Char) : Prop where
  text_eq : text = before ++ (line ++ after)
  starts : ∀ c ∈ before.getLast?, c = '\n'
  ends : (∃ body, '\n' ∉ body ∧ line = body ++ ['\n']) ∨ '\n' ∉ line ∧ line ≠ [] ∧ after = []

theorem lines_cons (c : Char) (text : List Char) : lines (c :: text) =
    if c = '\n' then [c] :: lines text
    else
      match lines text with
      | [] => [[c]]
      | line :: rest => (c :: line) :: rest := rfl

theorem flatten_lines (text : List Char) : (lines text).flatten = text := by
  induction text with
  | nil => rfl
  | cons c text ih =>
    rw [lines_cons]
    split
    · rw [List.flatten_cons, ih, List.singleton_append]
    · split
      next h => rw [← ih, h]; rfl
      next h => rw [← ih, h]; rfl

theorem lines_append_feed (h : '\n' ∉ body) (after : List Char) :
    lines (body ++ '\n' :: after) = (body ++ ['\n']) :: lines after := by
  induction body with
  | nil => rfl
  | cons c body ih =>
    rw [List.mem_cons, not_or] at h
    rw [List.cons_append, lines_cons, if_neg (Ne.symm h.1), ih h.2]
    rfl

theorem lines_of_not_mem (h : '\n' ∉ line) (hne : line ≠ []) : lines line = [line] := by
  induction line with
  | nil => exact absurd rfl hne
  | cons c line ih =>
    rw [List.mem_cons, not_or] at h
    rw [lines_cons, if_neg (Ne.symm h.1)]
    cases line with
    | nil => rfl
    | cons d line => rw [ih h.2 (by simp)]

theorem lines_append (h : ∀ c ∈ before.getLast?, c = '\n') (text : List Char) :
    lines (before ++ text) = lines before ++ lines text := by
  induction before with
  | nil => rfl
  | cons c before ih =>
    cases before with
    | nil =>
      obtain rfl : c = '\n' := h c rfl
      rfl
    | cons d before =>
      have hrest := ih (by rwa [List.getLast?_cons_cons] at h)
      rw [List.cons_append, lines_cons, lines_cons, hrest]
      split
      · rfl
      · cases hl : lines (d :: before) with
        | nil => simpa [hl] using (flatten_lines (d :: before)).symm
        | cons line rest => rfl

theorem IsLine.lines_eq (h : IsLine text before line after) : lines text = lines before ++ line :: lines after := by
  rw [h.text_eq, lines_append h.starts, List.append_cancel_left_eq]
  rcases h.ends with ⟨body, hbody, rfl⟩ | ⟨hline, hne, rfl⟩
  · rw [List.append_assoc, List.singleton_append, lines_append_feed hbody]
  · rw [List.append_nil, lines_of_not_mem hline hne]
    rfl

theorem lines_eq_cons (h : lines text = line :: rest) : ∃ after, text = line ++ after ∧ rest = lines after ∧
    ((∃ body, '\n' ∉ body ∧ line = body ++ ['\n']) ∨ '\n' ∉ line ∧ line ≠ [] ∧ after = []) := by
  by_cases hfeed : '\n' ∈ text
  · obtain ⟨body, after, rfl, hbody⟩ := List.eq_append_cons_of_mem hfeed
    rw [lines_append_feed hbody, List.cons.injEq] at h
    obtain ⟨rfl, rfl⟩ := h
    exact ⟨after, by simp, rfl, .inl ⟨body, hbody, rfl⟩⟩
  · have hne : text ≠ [] := by
      rintro rfl
      cases h
    rw [lines_of_not_mem hfeed hne, List.cons.injEq] at h
    obtain ⟨rfl, rfl⟩ := h
    exact ⟨[], by simp, rfl, .inr ⟨hfeed, hne, rfl⟩⟩

theorem isLine_of_lines (h : lines text = ls ++ line :: rest) : IsLine text ls.flatten line rest.flatten := by
  induction ls generalizing text with
  | nil =>
    obtain ⟨after, htext, rfl, hends⟩ := lines_eq_cons h
    rw [flatten_lines]
    exact ⟨htext, nofun, hends⟩
  | cons first ls ih =>
    obtain ⟨after, htext, hrest, hends⟩ := lines_eq_cons h
    have hlater := ih hrest.symm
    constructor
    case text_eq => rw [List.flatten_cons, List.append_assoc, ← hlater.text_eq, htext]
    case starts =>
      rw [List.flatten_cons, List.getLast?_append]
      intro c hc
      cases hl : ls.flatten.getLast? with
      | some d =>
        rw [hl] at hc
        cases hc
        exact hlater.starts c hl
      | none =>
        rw [hl, Option.none_or] at hc
        rcases hends with ⟨body, -, rfl⟩ | ⟨-, -, rfl⟩
        · simpa using hc.symm
        · simp [lines] at hrest
    case ends => exact hlater.ends

def Gives (key opening : List Char) : Prop :=
  ∃ lead gap, (∀ c ∈ lead, isBlank c = true) ∧ (∀ c ∈ gap, isBlank c = true) ∧ opening = lead ++ (key ++ gap)

theorem valueOf?_eq_some_iff (hkey : ∀ c ∈ key.head?, isBlank c = false) :
    valueOf? key line = some value ↔ ∃ opening, Gives key opening ∧ line = opening ++ '=' :: value := by
  have hequals (value : List Char) : trimStart ('=' :: value) = '=' :: value := rfl
  rw [valueOf?]
  constructor
  · intro h
    split at h
    next hprefix =>
      obtain ⟨rest, hrest⟩ := List.isPrefixOf_iff_prefix.1 hprefix
      obtain ⟨lead, hline, hlead, -⟩ := exists_trimStart line
      obtain ⟨gap, hgap, hblank, -⟩ := exists_trimStart rest
      rw [← hrest, List.drop_left] at h
      split at h
      next value' heq =>
        cases h
        refine ⟨lead ++ (key ++ gap), ⟨lead, gap, hlead, hblank, rfl⟩, ?_⟩
        rw [hline, ← hrest, hgap, heq]
        simp
      next => cases h
    next => cases h
  · rintro ⟨opening, ⟨lead, gap, hlead, hgap, rfl⟩, rfl⟩
    obtain ⟨rest, hstart, hrest⟩ : ∃ rest, trimStart (lead ++ (key ++ gap) ++ '=' :: value) = key ++ rest ∧
        trimStart rest = '=' :: value := by
      rw [List.append_assoc, trimStart_append hlead, List.append_assoc]
      cases key with
      | nil => exact ⟨'=' :: value, trimStart_append hgap _, hequals value⟩
      | cons c key =>
        refine ⟨gap ++ '=' :: value, trimStart_of_head? hkey, ?_⟩
        rw [trimStart_append hgap, hequals]
    simp only [hstart, List.isPrefixOf_iff_prefix.2 (List.prefix_append key rest), List.drop_left, hrest, if_true]

theorem valueOf?_eq_none_iff (hkey : ∀ c ∈ key.head?, isBlank c = false) :
    valueOf? key line = none ↔ ¬∃ opening value, Gives key opening ∧ line = opening ++ '=' :: value := by
  rw [Option.eq_none_iff_forall_ne_some]
  simp only [ne_eq, valueOf?_eq_some_iff hkey]
  constructor
  · rintro h ⟨opening, value, hopening, hline⟩
    exact h value ⟨opening, hopening, hline⟩
  · rintro h value ⟨opening, hopening, hline⟩
    exact h ⟨opening, value, hopening, hline⟩

structure Marks (text key before opening left core right after : List Char) : Prop where
  isLine : IsLine text before (opening ++ '=' :: (left ++ core ++ right)) after
  gives : Gives key opening
  trimmed : Trimmed left core right
  first : ∀ before' line after', IsLine text before' line after' → before'.length < before.length →
    ¬∃ opening value, Gives key opening ∧ line = opening ++ '=' :: value

theorem Marks.text_eq (h : Marks text key before opening left core right after) :
    text = (before ++ (opening ++ '=' :: left)) ++ core ++ (right ++ after) := by
  rw [h.isLine.text_eq]
  simp

theorem search_eq_some_iff : search key offset ls = some span ↔ ∃ front line rest value, ls = front ++ line :: rest ∧
    (∀ l ∈ front, valueOf? key l = none) ∧ valueOf? key line = some value ∧
    span = ⟨offset + size front.flatten + (spanIn line value).offset, (spanIn line value).length⟩ := by
  induction ls generalizing offset with
  | nil => simp [search]
  | cons first ls ih =>
    rw [search]
    constructor
    · intro h
      split at h
      next value hvalue =>
        cases h
        exact ⟨[], first, ls, value, rfl, nofun, hvalue, by simp⟩
      next hnone =>
        obtain ⟨front, line, rest, value, rfl, hfront, hvalue, rfl⟩ := ih.1 h
        refine ⟨first :: front, line, rest, value, rfl, List.forall_mem_cons.2 ⟨hnone, hfront⟩, hvalue, ?_⟩
        simp [Nat.add_assoc]
    · rintro ⟨front, line, rest, value, hls, hfront, hvalue, rfl⟩
      cases front with
      | nil =>
        obtain ⟨rfl, rfl⟩ := List.cons.inj hls
        simp [hvalue]
      | cons l front =>
        obtain ⟨rfl, rfl⟩ := List.cons.inj hls
        obtain ⟨hnone, hfront⟩ := List.forall_mem_cons.1 hfront
        rw [hnone]
        refine ih.2 ⟨front, line, rest, value, rfl, hfront, hvalue, ?_⟩
        simp [Nat.add_assoc]

theorem spanIn_eq (h : Trimmed left core right) (opening : List Char) :
    spanIn (opening ++ '=' :: (left ++ core ++ right)) (left ++ core ++ right) =
      ⟨size (opening ++ '=' :: left), size core⟩ := by
  rw [spanIn, h.trimStart_eq, h.trim_eq]
  simp only [size_append, size_cons]
  congr 1
  omega

theorem search_eq_none_iff : search key offset ls = none ↔ ∀ l ∈ ls, valueOf? key l = none := by
  induction ls generalizing offset with
  | nil => simp [search]
  | cons first ls ih =>
    rw [search, List.forall_mem_cons]
    cases hvalue : valueOf? key first with
    | some value => simp
    | none => simp [ih]

theorem Marks.of_lines (hkey : ∀ c ∈ key.head?, isBlank c = false) (h : lines text = ls ++ line :: rest)
    (hfirst : ∀ l ∈ ls, valueOf? key l = none) (hvalue : valueOf? key line = some value) :
    ∃ opening left core right, line = opening ++ '=' :: (left ++ core ++ right) ∧ value = left ++ core ++ right ∧
      Marks text key ls.flatten opening left core right rest.flatten := by
  obtain ⟨opening, hopening, rfl⟩ := (valueOf?_eq_some_iff hkey).1 hvalue
  obtain ⟨left, core, right, rfl, htrimmed⟩ := exists_trimmed value
  refine ⟨opening, left, core, right, rfl, rfl, isLine_of_lines h, hopening, htrimmed, ?_⟩
  intro before' line' after' hline' hshorter
  rw [← valueOf?_eq_none_iff hkey]
  apply hfirst
  -- the line stands before this one in the text, and so among the lines before it
  rw [hline'.lines_eq] at h
  rcases List.append_eq_append_iff.1 h with ⟨between, hls, hrest⟩ | ⟨between, hbefore, -⟩
  · cases between with
    | nil =>
      rw [hls, List.append_nil, flatten_lines] at hshorter
      exact absurd hshorter (Nat.lt_irrefl _)
    | cons l between =>
      rw [(List.cons.inj hrest).1, hls]
      simp
  · rw [← flatten_lines before', hbefore, List.flatten_append, List.length_append] at hshorter
    omega

theorem Marks.valueOf?_before (hkey : ∀ c ∈ key.head?, isBlank c = false)
    (h : Marks text key before opening left core right after) : ∀ l ∈ lines before, valueOf? key l = none := by
  intro l hl
  obtain ⟨front, back, hsplit⟩ := List.append_of_mem hl
  have hlines := h.isLine.lines_eq
  rw [hsplit, List.append_assoc] at hlines
  have hline := isLine_of_lines hlines
  rw [valueOf?_eq_none_iff hkey]
  apply h.first _ _ _ hline
  have hne : l ≠ [] := by
    rcases hline.ends with ⟨body, -, rfl⟩ | ⟨-, hne, -⟩
    · simp
    · exact hne
  have hlength := congrArg (fun ls => ls.flatten.length) hsplit
  have hpos := List.length_pos_iff.2 hne
  simp only [flatten_lines, List.flatten_append, List.flatten_cons, List.length_append] at hlength
  omega

theorem find?_eq_some_iff {text key : String} (hkey : ∀ c ∈ key.toList.head?, isBlank c = false) :
    find? text key = some span ↔ ∃ before opening left core right after,
      Marks text.toList key.toList before opening left core right after ∧
        span = .of (before ++ (opening ++ '=' :: left)) core := by
  rw [find?, search_eq_some_iff]
  constructor
  · rintro ⟨front, line, rest, value, hlines, hfront, hvalue, rfl⟩
    obtain ⟨opening, left, core, right, rfl, rfl, hmarks⟩ := Marks.of_lines hkey hlines hfront hvalue
    refine ⟨_, opening, left, core, right, _, hmarks, ?_⟩
    rw [spanIn_eq hmarks.trimmed, Span.of, size_append front.flatten, Nat.zero_add]
  · rintro ⟨before, opening, left, core, right, after, hmarks, rfl⟩
    refine ⟨_, _, _, left ++ core ++ right, hmarks.isLine.lines_eq, hmarks.valueOf?_before hkey,
      (valueOf?_eq_some_iff hkey).2 ⟨opening, hmarks.gives, rfl⟩, ?_⟩
    rw [spanIn_eq hmarks.trimmed, flatten_lines, Span.of, size_append before, Nat.zero_add]

theorem find?_eq_none_iff {text key : String} (hkey : ∀ c ∈ key.toList.head?, isBlank c = false) :
    find? text key = none ↔ ∀ before line after, IsLine text.toList before line after →
      ¬∃ opening value, Gives key.toList opening ∧ line = opening ++ '=' :: value := by
  rw [find?, search_eq_none_iff]
  simp only [valueOf?_eq_none_iff hkey]
  constructor
  · intro h before line after hline
    apply h
    rw [hline.lines_eq]
    simp
  · intro h line hline
    obtain ⟨front, rest, hlines⟩ := List.append_of_mem hline
    exact h _ _ _ (isLine_of_lines hlines)

/-- A key is found exactly if some line gives it a value, and then the first such line counts. The span lies
within the text, between characters of it, and has the bytes of what the line gives without the blanks
around; an empty value is marked at the end of its line. -/
theorem find?_locates {key : String} (hkey : ∀ c ∈ key.toList.head?, isBlank c = false) (text : String) :
    ((∃ span, find? text key = some span) ↔ ∃ before line after, IsLine text.toList before line after ∧
      ∃ opening value, Gives key.toList opening ∧ line = opening ++ '=' :: value) ∧
    ∀ span, find? text key = some span → ∃ before opening left core right after,
      Marks text.toList key.toList before opening left core right after ∧
      span.offset = size (before ++ (opening ++ '=' :: left)) ∧ span.length = size core ∧
      span.Holds text core ∧
      size (trimStart (left ++ core ++ right)) ≤ size (opening ++ '=' :: (left ++ core ++ right)) ∧
      (core = [] → span.offset = size (before ++ (opening ++ '=' :: (left ++ core ++ right)))) := by
  constructor
  · rw [← Option.isSome_iff_exists, ← Option.ne_none_iff_isSome, ne_eq, find?_eq_none_iff hkey]
    simp only [Classical.not_forall, Classical.not_not, exists_prop]
  · intro span h
    obtain ⟨before, opening, left, core, right, after, hmarks, rfl⟩ := (find?_eq_some_iff hkey).1 h
    refine ⟨before, opening, left, core, right, after, hmarks, rfl, rfl, Span.holds_of hmarks.text_eq, ?_, ?_⟩
    · rw [hmarks.trimmed.trimStart_eq]
      simp only [size_append, size_cons]
      omega
    · intro hempty
      rw [hempty, hmarks.trimmed.behind hempty]
      simp [Span.of]

theorem find?_locates_sample : ∃ text span, (∀ c ∈ "out_dir".toList.head?, isBlank c = false) ∧
    text = "# é\n\u3000out_dir\u00a0=  \"ü\"\r\nout_dir = 2" ∧ find? text "out_dir" = some span ∧
    span.Holds text "\"ü\"".toList := by
  have hkey : ∀ c ∈ "out_dir".toList.head?, isBlank c = false :=
    head_of_head?_eq (show _ = some 'o' by decide +kernel) (by decide +kernel)
  have hfind : find? "# é\n\u3000out_dir\u00a0=  \"ü\"\r\nout_dir = 2" "out_dir" = some ⟨20, 4⟩ := by decide +kernel
  obtain ⟨_, _, _, core, _, _, -, -, -, hholds, -⟩ := (find?_locates hkey _).2 _ hfind
  have hbytes : "# é\n\u3000out_dir\u00a0=  \"ü\"\r\nout_dir = 2".toUTF8.extract 20 24 = "\"ü\"".toUTF8 := by
    decide +kernel
  have hcore : String.ofList core = "\"ü\"" := String.toByteArray_inj.1 (hholds.bytes.symm.trans hbytes)
  refine ⟨_, _, hkey, rfl, hfind, ?_⟩
  rwa [← hcore, String.toList_ofList]

end DeclBundle.Label
