/-!
Patterns that know where lines begin and end, and what is left of a text when all that a pattern
matches is erased. A match is found by trying: the leftmost place comes first, and of the matches
that begin there the one that prefers longer runs.
-/

namespace DeclBundle.Text

structure Cursor where
  before : List Char
  after : List Char

namespace Cursor

def atLineStart (c : Cursor) : Bool :=
  match c.before.head? with
  | none => true
  | some d => d = '\n' || (d = '\r' && c.after.head? ≠ some '\n')

def atLineEnd (c : Cursor) : Bool :=
  match c.after.head? with
  | none => true
  | some d => d = '\r' || (d = '\n' && c.before.head? ≠ some '\r')

end Cursor

inductive Item
  | lineStart
  | lineEnd
  | char (c : Char)
  | run (kind : Char → Bool)

abbrev Pattern := List Item

def runs (kind : Char → Bool) : List Char → List Char → List Cursor
  | _, [] => []
  | before, c :: rest => if kind c then runs kind (c :: before) rest ++ [⟨c :: before, rest⟩] else []

def Item.ends : Item → Cursor → List Cursor
  | lineStart, c => if c.atLineStart then [c] else []
  | lineEnd, c => if c.atLineEnd then [c] else []
  | char d, ⟨before, after⟩ => if after.head? = some d then [⟨d :: before, after.tail⟩] else []
  | run kind, ⟨before, after⟩ => runs kind before after

namespace Pattern

def ends : Pattern → Cursor → List Cursor
  | [], c => [c]
  | item :: rest, c => (item.ends c).flatMap (ends rest)

/-- The text after a place without what a pattern matches in it. The search goes on where a match
ends; an empty match erases nothing. -/
def erase (p : Pattern) : Cursor → List Char
  | ⟨_, []⟩ => []
  | ⟨before, c :: rest⟩ =>
    match (p.ends ⟨before, c :: rest⟩).head? with
    | some e => if e.after.length < (c :: rest).length then p.erase e else c :: p.erase ⟨c :: before, rest⟩
    | none => c :: p.erase ⟨c :: before, rest⟩
termination_by c => c.after.length
decreasing_by
  · assumption
  · exact Nat.lt_succ_self _
  · exact Nat.lt_succ_self _

variable {p : Pattern} {c : Char} {before after rest word : List Char} {kind : Char → Bool} {e : Cursor}
  {others : List Cursor}

@[simp] theorem erase_end (p : Pattern) (before : List Char) : p.erase ⟨before, []⟩ = [] := by
  rw [erase]

theorem erase_of_ends_eq_nil (h : p.ends ⟨before, c :: rest⟩ = []) :
    p.erase ⟨before, c :: rest⟩ = c :: p.erase ⟨c :: before, rest⟩ := by
  rw [erase, h, List.head?_nil]

theorem erase_of_ends_eq_cons (h : p.ends ⟨before, after⟩ = e :: others) (hlt : e.after.length < after.length) :
    p.erase ⟨before, after⟩ = p.erase e := by
  cases after with
  | nil => cases hlt
  | cons c rest =>
    rw [erase, h, List.head?_cons]
    exact if_pos hlt

theorem ends_word (p : Pattern) (word before rest : List Char) :
    ends (word.map .char ++ p) ⟨before, word ++ rest⟩ = ends p ⟨word.reverse ++ before, rest⟩ := by
  induction word generalizing before with
  | nil => rfl
  | cons c word ih => simp [ends, Item.ends, ih]

theorem ends_word_of_no_match (h : ¬word <+: after) (p : Pattern) (before : List Char) :
    ends (word.map .char ++ p) ⟨before, after⟩ = [] := by
  induction word generalizing before after with
  | nil => exact absurd List.nil_prefix h
  | cons c word ih =>
    cases after with
    | nil => rfl
    | cons d rest =>
      by_cases hd : d = c
      · have hrest : ¬word <+: rest := by simpa [hd] using h
        simp [ends, Item.ends, hd, ih hrest]
      · simp [ends, Item.ends, hd]

theorem exists_runs_eq_cons {run : List Char} (hrun : ∀ d ∈ run, kind d = true) (hc : kind c = true)
    (hrest : ∀ d ∈ rest.head?, kind d = false) (before : List Char) :
    ∃ others, runs kind before (c :: run ++ rest) = ⟨(c :: run).reverse ++ before, rest⟩ :: others := by
  induction run generalizing c before with
  | nil =>
    have hnone : runs kind (c :: before) rest = [] := by
      cases rest with
      | nil => rfl
      | cons d rest => rw [runs, if_neg (by simp [hrest d rfl])]
    exact ⟨[], by simp [runs, hc, hnone]⟩
  | cons d run ih =>
    obtain ⟨others, h⟩ := ih (fun f hf => hrun f (List.mem_cons_of_mem _ hf)) (hrun d List.mem_cons_self) (c :: before)
    refine ⟨others ++ [⟨c :: before, d :: run ++ rest⟩], ?_⟩
    rw [List.cons_append, runs, if_pos hc, h]
    simp

end Pattern

end DeclBundle.Text
