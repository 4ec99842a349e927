import DeclBundle.Text.Blank
import DeclBundle.Text.Span

namespace DeclBundle

namespace Text

variable {text : List Char}

theorem foldl_utf8Size (n : Nat) (text : List Char) : text.foldl (fun n c => n + c.utf8Size) n = n + size text := by
  rw [size]
  induction text generalizing n with
  | nil => rfl
  | cons c text ih => rw [List.foldl_cons, List.foldl_cons, ih, ih (0 + c.utf8Size), Nat.zero_add, Nat.add_assoc]

@[simp] theorem size_nil : size [] = 0 := rfl

@[simp] theorem size_cons (c : Char) (text : List Char) : size (c :: text) = c.utf8Size + size text := by
  rw [size, List.foldl_cons, foldl_utf8Size, Nat.zero_add]

@[simp] theorem size_append (a b : List Char) : size (a ++ b) = size a + size b := by
  rw [size, List.foldl_append, foldl_utf8Size, ← size]

theorem utf8ByteSize_ofList (text : List Char) : (String.ofList text).utf8ByteSize = size text := by
  induction text with
  | nil => rfl
  | cons c text ih =>
    rw [String.ofList_cons, String.utf8ByteSize_append, String.utf8ByteSize_singleton, ih, size_cons]

theorem eq_of_size_eq {a b c d : List Char} (h : a ++ b = c ++ d) (hsize : size a = size c) : a = c ∧ b = d := by
  induction a generalizing c with
  | nil =>
    cases c with
    | nil => exact ⟨rfl, h⟩
    | cons y c =>
      have hpos := y.utf8Size_pos
      rw [size_cons, size_nil] at hsize
      omega
  | cons x a ih =>
    cases c with
    | nil =>
      have hpos := x.utf8Size_pos
      rw [size_cons, size_nil] at hsize
      omega
    | cons y c =>
      obtain ⟨rfl, htail⟩ := List.cons.inj h
      rw [size_cons, size_cons, Nat.add_left_cancel_iff] at hsize
      obtain ⟨rfl, rfl⟩ := ih htail hsize
      exact ⟨rfl, rfl⟩

end Text

open Text

namespace Span

variable {span : Span} {text : String} {before piece piece' after : List Char}

def of (before piece : List Char) : Span :=
  ⟨size before, size piece⟩

theorem between_eq (before piece after : List Char) :
    between (size (before ++ (piece ++ after))) (piece ++ after) after = of before piece := by
  simp only [between, of, size_append, Nat.add_sub_cancel]

structure Holds (span : Span) (text : String) (piece : List Char) : Prop where
  begins : (String.Pos.Raw.mk span.offset).IsValid text
  ends : (String.Pos.Raw.mk (span.offset + span.length)).IsValid text
  within : span.offset + span.length ≤ text.utf8ByteSize
  bytes : text.toUTF8.extract span.offset (span.offset + span.length) = (String.ofList piece).toUTF8

theorem holds_of (h : text.toList = before ++ piece ++ after) : (of before piece).Holds text piece := by
  obtain rfl : text = String.ofList (before ++ piece ++ after) := by rw [← h, String.ofList_toList]
  have hend : size before + size piece = (String.ofList (before ++ piece)).utf8ByteSize := by
    rw [utf8ByteSize_ofList, size_append]
  rw [String.ofList_append]
  constructor
  case begins =>
    refine String.Pos.Raw.isValid_iff_exists_append.2 ⟨String.ofList before, String.ofList (piece ++ after), ?_, ?_⟩
    · rw [← String.ofList_append, ← String.ofList_append, List.append_assoc]
    · exact String.Pos.Raw.ext (utf8ByteSize_ofList before).symm
  case ends =>
    exact String.Pos.Raw.isValid_iff_exists_append.2 ⟨_, _, rfl, String.Pos.Raw.ext hend⟩
  case within =>
    rw [String.utf8ByteSize_append, ← hend]
    exact Nat.le_add_right _ _
  case bytes =>
    have hbefore : (String.ofList before).toByteArray.size = size before := by
      rw [String.size_toByteArray, utf8ByteSize_ofList]
    have hpiece : (String.ofList piece).toByteArray.size = size piece := by
      rw [String.size_toByteArray, utf8ByteSize_ofList]
    simp only [of, String.toUTF8_eq_toByteArray, String.ofList_append, String.toByteArray_append]
    rw [ByteArray.append_assoc, ← hbefore, ← hpiece]
    have hrest := ByteArray.extract_append_size_add (a := (String.ofList before).toByteArray)
      (b := (String.ofList piece).toByteArray ++ (String.ofList after).toByteArray) (i := 0)
      (j := (String.ofList piece).toByteArray.size)
    rw [Nat.add_zero] at hrest
    rw [hrest, ByteArray.extract_append_eq_left rfl]

theorem Holds.unique (h : span.Holds text piece) (h' : span.Holds text piece') : piece = piece' := by
  have hbytes := h.bytes.symm.trans h'.bytes
  exact String.ofList_inj.1 (String.toByteArray_inj.1 hbytes)

end Span

namespace Text

variable {value left core right : List Char}

structure Trimmed (left core right : List Char) : Prop where
  leading : ∀ c ∈ left, isBlank c = true
  trailing : ∀ c ∈ right, isBlank c = true
  head : ∀ c ∈ core.head?, isBlank c = false
  last : ∀ c ∈ core.getLast?, isBlank c = false
  behind : core = [] → right = []

theorem trimStart_append (h : ∀ c ∈ left, isBlank c = true) (rest : List Char) :
    trimStart (left ++ rest) = trimStart rest :=
  List.dropWhile_append_of_pos h

theorem trimStart_of_head? (h : ∀ c ∈ value.head?, isBlank c = false) : trimStart value = value := by
  cases value with
  | nil => rfl
  | cons c value => simp [trimStart, h c rfl]

theorem head_of_head?_eq {c : Char} (h : value.head? = some c) (hc : isBlank c = false) :
    ∀ d ∈ value.head?, isBlank d = false := by
  rw [h]
  rintro d ⟨⟩
  exact hc

theorem exists_trimStart (value : List Char) : ∃ left, value = left ++ trimStart value ∧
    (∀ c ∈ left, isBlank c = true) ∧ ∀ c ∈ (trimStart value).head?, isBlank c = false := by
  refine ⟨value.takeWhile isBlank, List.takeWhile_append_dropWhile.symm, ?_, ?_⟩
  · exact List.all_eq_true.1 List.all_takeWhile
  · intro c hc
    have hnot := List.head?_dropWhile_not isBlank value
    rwa [show (List.dropWhile isBlank value).head? = some c from hc] at hnot

theorem trimEnd_append (h : ∀ c ∈ right, isBlank c = true) (hlast : ∀ c ∈ core.getLast?, isBlank c = false) :
    trimEnd (core ++ right) = core := by
  have hright : ∀ c ∈ right.reverse, isBlank c = true := fun c hc => h c (List.mem_reverse.1 hc)
  have hcore : ∀ c ∈ core.reverse.head?, isBlank c = false := by rwa [List.head?_reverse]
  have hstart := trimStart_append hright core.reverse
  rw [trimStart_of_head? hcore] at hstart
  rw [trimEnd, List.reverse_append]
  exact (congrArg List.reverse hstart).trans core.reverse_reverse

theorem Trimmed.trimStart_eq (h : Trimmed left core right) : trimStart (left ++ core ++ right) = core ++ right := by
  rw [List.append_assoc, trimStart_append h.leading]
  apply trimStart_of_head?
  cases core with
  | nil => simp [h.behind rfl]
  | cons c core => exact h.head

theorem Trimmed.trim_eq (h : Trimmed left core right) : trim (left ++ core ++ right) = core := by
  rw [trim, h.trimStart_eq, trimEnd_append h.trailing h.last]

theorem exists_trimmed (value : List Char) :
    ∃ left core right, value = left ++ core ++ right ∧ Trimmed left core right := by
  obtain ⟨left, hvalue, hleft, hhead⟩ := exists_trimStart value
  obtain ⟨front, hfront, hblank, hlast⟩ := exists_trimStart (trimStart value).reverse
  generalize trimStart (trimStart value).reverse = back at hfront hlast
  generalize trimStart value = start at hvalue hhead hfront
  obtain rfl : start = back.reverse ++ front.reverse := by
    rw [← List.reverse_append, ← hfront, List.reverse_reverse]
  refine ⟨left, back.reverse, front.reverse, by rw [List.append_assoc, ← hvalue], ?_⟩
  constructor
  case leading => exact hleft
  case trailing => simpa using hblank
  case head =>
    intro c hc
    exact hhead c (by simp [List.head?_append, Option.mem_def.1 hc])
  case last => rwa [List.getLast?_reverse]
  case behind =>
    intro hback
    cases hf : front.reverse with
    | nil => rfl
    | cons c rest =>
      have hc : isBlank c = true := hblank c (List.mem_reverse.1 (hf ▸ List.mem_cons_self))
      rw [hhead c (by simp [hback, hf])] at hc
      cases hc

end Text

end DeclBundle
