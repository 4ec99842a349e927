import DeclBundle.Proofs.Label
import DeclBundle.Proofs.Manifest.Written

/-!
Where a refused configuration file is marked. The mark is what the first line that begins with the key and
an equals sign has to the right of it, and the document is not asked; so the value itself is marked exactly
where it is all that stands there.
-/

namespace DeclBundle.Manifest

open Toml

variable {text key file file' : String} {before quoted after : List Char} {value : Unusable} {span written : Span}
  {setting : Setting}

/-- On the first line that begins with the key and an equals sign nothing but the value follows them, blanks
left out. -/
def Alone (text key : String) (before quoted : List Char) : Prop :=
  ∃ start opening left right after, Label.Marks text.toList key.toList start opening left quoted right after ∧
    before = start ++ (opening ++ '=' :: left)

theorem key_head (setting : Setting) : ∀ c ∈ setting.key.toList.head?, Text.isBlank c = false := by
  cases setting with
  | inDir => exact Text.head_of_head?_eq (show _ = some 'i' by decide +kernel) (by decide +kernel)
  | outDir => exact Text.head_of_head?_eq (show _ = some 'o' by decide +kernel) (by decide +kernel)
  | outFileName => exact Text.head_of_head?_eq (show _ = some 'o' by decide +kernel) (by decide +kernel)
  | program => exact Text.head_of_head?_eq (show _ = some 'p' by decide +kernel) (by decide +kernel)

theorem exists_alone_of_find? (h : Label.find? text setting.key = some span) :
    ∃ before core after, text.toList = before ++ core ++ after ∧ span = .of before core ∧
      Alone text setting.key before core := by
  obtain ⟨start, opening, left, core, right, after, hmarks, rfl⟩ := (Label.find?_eq_some_iff (key_head setting)).1 h
  exact ⟨_, core, right ++ after, hmarks.text_eq, rfl, start, opening, left, right, after, hmarks, rfl⟩

theorem find?_of_alone (h : Alone text setting.key before quoted) :
    Label.find? text setting.key = some (.of before quoted) := by
  obtain ⟨start, opening, left, right, after, hmarks, rfl⟩ := h
  exact (Label.find?_eq_some_iff (key_head setting)).2 ⟨_, _, _, _, _, _, hmarks, rfl⟩

theorem eq_of_iff_alone (h : Label.find? text setting.key = some span) (htext : text.toList = before ++ quoted ++ after) :
    span = .of before quoted ↔ Alone text setting.key before quoted := by
  constructor
  · rintro rfl
    obtain ⟨before', core, after', htext', hspan, halone⟩ := exists_alone_of_find? h
    obtain ⟨hbefore, hcore⟩ := Span.mk.inj hspan
    rw [htext, List.append_assoc, List.append_assoc] at htext'
    obtain ⟨rfl, hrest⟩ := Text.eq_of_size_eq htext' hbefore
    obtain ⟨rfl, -⟩ := Text.eq_of_size_eq hrest hcore
    exact halone
  · intro halone
    exact Option.some.inj (h.symm.trans (find?_of_alone halone))

theorem holds_iff_alone (h : Label.find? text setting.key = some span) :
    span.Holds text quoted ↔ ∃ before, Alone text setting.key before quoted := by
  obtain ⟨before, core, after, htext, rfl, halone⟩ := exists_alone_of_find? h
  have hholds : (Span.of before core).Holds text core := Span.holds_of htext
  constructor
  · intro hquoted
    exact ⟨before, by rwa [hquoted.unique hholds]⟩
  · rintro ⟨before', halone'⟩
    have hspan := Option.some.inj (h.symm.trans (find?_of_alone halone'))
    obtain ⟨start, opening, left, right, after', hmarks, rfl⟩ := halone'
    rw [hspan]
    exact Span.holds_of hmarks.text_eq

/-- A document that is refused for a value has the value in one place, where it is quoted. The mark covers it
exactly if nothing else follows the key and the equals sign on the first line that begins with them. -/
theorem label_covers_value_iff (h : parse file text = .error (.unusable file' value (some span))) :
    ∃ document written content before quoted after, Document.parse? text = some document ∧
      (∀ node, Written document value.setting node ↔ node = .text written content) ∧
      text.toList = before ++ quoted ++ after ∧ written = .of before quoted ∧
      Quoted.read? (quoted ++ after) = some (content.toList, after) ∧
      (span = written ↔ Alone text value.setting.key before quoted) ∧
      (span.Holds text quoted ↔ ∃ before', Alone text value.setting.key before' quoted) := by
  obtain ⟨-, -, -, -, -, hfind⟩ := parse_eq_unusable h
  obtain ⟨document, written, content, hdocument, hwritten, before, quoted, after, htext, rfl, hread⟩ :=
    exists_value_of_parse h
  exact ⟨document, _, content, before, quoted, after, hdocument, hwritten, htext, rfl, hread,
    eq_of_iff_alone hfind.symm htext, holds_iff_alone hfind.symm⟩

theorem label_covers_value_sample : ∃ document content, Document.parse? "[bundle]\nin_dir = \"\"\n" = some document ∧
    parse "dtsb.toml" "[bundle]\nin_dir = \"\"\n" =
      .error (.unusable "dtsb.toml" (.emptyPath .inDir) (some ⟨18, 2⟩)) ∧
    Written document .inDir (.text ⟨18, 2⟩ content) ∧
    Alone "[bundle]\nin_dir = \"\"\n" "in_dir" "[bundle]\nin_dir = ".toList "\"\"".toList := by
  have hparse : parse "dtsb.toml" "[bundle]\nin_dir = \"\"\n" =
      .error (.unusable "dtsb.toml" (.emptyPath .inDir) (some ⟨18, 2⟩)) := by decide +kernel
  obtain ⟨document, _, content, before, quoted, after, hdocument, hwritten, htext, rfl, hread, hspan, -⟩ :=
    label_covers_value_iff hparse
  have hone : ∀ n < 22, (Quoted.read? ("[bundle]\nin_dir = \"\"\n".toList.drop n)).isSome = true → n = 18 := by
    decide +kernel
  have hlength : "[bundle]\nin_dir = \"\"\n".toList.length = 21 := by decide +kernel
  have hrest : "[bundle]\nin_dir = \"\"\n".toList.drop before.length = quoted ++ after := by
    rw [htext, List.append_assoc, List.drop_left]
  have hbound : before.length < 22 := by
    rw [htext, List.length_append, List.length_append] at hlength
    omega
  have hplace : before.length = 18 := hone _ hbound (by rw [hrest, hread, Option.isSome_some])
  -- so the value begins there, and ends where the reader does
  have hbefore : before = "[bundle]\nin_dir = ".toList := by
    have htake : "[bundle]\nin_dir = \"\"\n".toList.take 18 = before := by
      rw [← hplace, htext, List.append_assoc, List.take_left]
    rw [← htake]
    decide +kernel
  have hquotes : quoted ++ after = "\"\"".toList ++ ['\n'] := by
    rw [← hrest, hplace]
    decide +kernel
  have hstops : Quoted.read? ("\"\"".toList ++ ['\n']) = some ([], ['\n']) := by decide +kernel
  rw [hquotes, hstops] at hread
  obtain rfl : ['\n'] = after := congrArg Prod.snd (Option.some.inj hread)
  obtain rfl : quoted = "\"\"".toList := List.append_cancel_right hquotes
  have hsize : Span.of before "\"\"".toList = ⟨18, 2⟩ := by
    rw [hbefore]
    decide +kernel
  rw [hsize] at hwritten hspan
  rw [← hbefore]
  exact ⟨document, content, hdocument, hparse, (hwritten _).2 rfl, hspan.1 rfl⟩

theorem not_forall_label_covers_value : ¬∀ (file file' text : String) (value : Unusable) (span : Span),
    parse file text = .error (.unusable file' value (some span)) →
      ∀ (document : Entries) (content : String) (before quoted after : List Char),
        Document.parse? text = some document →
        Written document value.setting (.text (.of before quoted) content) →
        text.toList = before ++ quoted ++ after → Quoted.read? (quoted ++ after) = some (content.toList, after) →
        span.Holds text quoted := by
  intro h
  have hparse : parse "dtsb.toml" "[bundle]\nin_dir = \"\" # none\n" =
      .error (.unusable "dtsb.toml" (.emptyPath .inDir) (some ⟨18, 9⟩)) := by decide +kernel
  obtain ⟨document, _, content, hdocument, hwritten, before, quoted, after, htext, rfl, hread⟩ :=
    exists_value_of_parse hparse
  have hholds := h _ _ _ _ _ hparse document content before quoted after hdocument ((hwritten _).2 rfl) htext hread
  have hbytes : "[bundle]\nin_dir = \"\" # none\n".toUTF8.extract 18 27 = "\"\" # none".toUTF8 := by decide +kernel
  have hquoted : String.ofList quoted = "\"\" # none" := String.toByteArray_inj.1 (hholds.bytes.symm.trans hbytes)
  have hlist : quoted = ['"', '"', ' ', '#', ' ', 'n', 'o', 'n', 'e'] := by
    rw [← String.toList_ofList (l := quoted), hquoted]
    decide +kernel
  rw [hlist] at hread
  -- the reader stops at the quote before the comment
  have hstops : Quoted.read? (['"', '"', ' ', '#', ' ', 'n', 'o', 'n', 'e'] ++ after) =
      some ([], [' ', '#', ' ', 'n', 'o', 'n', 'e'] ++ after) := rfl
  rw [hstops] at hread
  have hafter : [' ', '#', ' ', 'n', 'o', 'n', 'e'] ++ after = after := congrArg Prod.snd (Option.some.inj hread)
  cases List.append_left_eq_self.1 hafter

end DeclBundle.Manifest
