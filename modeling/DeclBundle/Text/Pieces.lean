/-!
A text cut at separator characters. `Pieces.cut` keeps every separator beside the piece that
follows it, so that `Pieces.join` puts the text together again (`join_cut`), and no piece holds
a separator (`not_sep_of_mem_cut`).
-/

namespace DeclBundle.Text

structure Pieces where
  first : List Char
  rest : List (Char × List Char)
  deriving DecidableEq, Repr

namespace Pieces

def empty : Pieces := ⟨[], []⟩

def cons (sep : Char → Bool) (c : Char) (p : Pieces) : Pieces :=
  if sep c then ⟨[], (c, p.first) :: p.rest⟩ else ⟨c :: p.first, p.rest⟩

def cut (sep : Char → Bool) (text : List Char) : Pieces :=
  text.foldr (cons sep) empty

def toList (p : Pieces) : List (List Char) :=
  p.first :: p.rest.map Prod.snd

def separators (p : Pieces) : List Char :=
  p.rest.map Prod.fst

def join (p : Pieces) : List Char :=
  p.first ++ p.rest.flatMap fun (c, piece) => c :: piece

def map (f : List Char → List Char) (p : Pieces) : Pieces :=
  ⟨f p.first, p.rest.map fun (c, piece) => (c, f piece)⟩

@[simp] theorem cut_nil (sep : Char → Bool) : cut sep [] = empty := rfl

@[simp] theorem cut_cons (sep : Char → Bool) (c : Char) (text : List Char) :
    cut sep (c :: text) = cons sep c (cut sep text) := rfl

theorem join_cons (sep : Char → Bool) (c : Char) (p : Pieces) :
    (cons sep c p).join = c :: p.join := by
  by_cases h : sep c <;> simp [cons, join, h]

@[simp] theorem join_cut (sep : Char → Bool) (text : List Char) : (cut sep text).join = text := by
  induction text with
  | nil => rfl
  | cons c text ih => rw [cut_cons, join_cons, ih]

@[simp] theorem separators_map (f : List Char → List Char) (p : Pieces) :
    (p.map f).separators = p.separators := by
  simp [map, separators]

@[simp] theorem toList_map (f : List Char → List Char) (p : Pieces) :
    (p.map f).toList = p.toList.map f := by
  simp [map, toList]

theorem not_sep_of_mem_cut {sep : Char → Bool} {text piece : List Char}
    (h : piece ∈ (cut sep text).toList) : ∀ c ∈ piece, sep c = false := by
  induction text generalizing piece with
  | nil => simp_all [empty, toList]
  | cons c text ih =>
    by_cases hc : sep c
    · rw [cut_cons, cons, if_pos hc] at h
      rcases List.mem_cons.1 h with rfl | h
      · simp
      · exact ih h
    · rw [cut_cons, cons, if_neg hc] at h
      rcases List.mem_cons.1 h with rfl | h
      · intro d hd
        rcases List.mem_cons.1 hd with rfl | hd
        · simpa using hc
        · exact ih List.mem_cons_self d hd
      · exact ih (List.mem_cons_of_mem _ h)

end Pieces

end DeclBundle.Text
