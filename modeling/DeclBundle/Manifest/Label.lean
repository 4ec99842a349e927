import DeclBundle.Text.Blank
import DeclBundle.Text.Span

/-!
Where a text gives a key its value. The search goes by lines and knows nothing of the document:
it takes the first line that begins with the key and an equals sign, and what is left of it.
-/

namespace DeclBundle.Label

open Text

def lines (text : List Char) : List (List Char) :=
  text.foldr (fun c rest =>
    if c = '\n' then [c] :: rest
    else
      match rest with
      | [] => [[c]]
      | line :: rest => (c :: line) :: rest) []

def valueOf? (key line : List Char) : Option (List Char) :=
  let line := trimStart line
  if key.isPrefixOf line then
    match trimStart (line.drop key.length) with
    | '=' :: value => some value
    | _ => none
  else none

def spanIn (line value : List Char) : Span :=
  ⟨size line - size (trimStart value), size (trim value)⟩

def search (key : List Char) (offset : Nat) : List (List Char) → Option Span
  | [] => none
  | line :: rest =>
    match valueOf? key line with
    | some value =>
      let span := spanIn line value
      some ⟨offset + span.offset, span.length⟩
    | none => search key (offset + size line) rest

def find? (text key : String) : Option Span :=
  search key.toList 0 (lines text.toList)

end DeclBundle.Label
