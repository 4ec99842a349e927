namespace DeclBundle.Shell

structure Letter where
  quoted : Bool
  char : Char
  deriving DecidableEq, Repr

inductive Range
  | between (first last : Char)
  | named (name : String)
  deriving DecidableEq, Repr

namespace Range

def holds (r : Range) (c : Char) : Bool :=
  match r with
  | between first last => first ≤ c && c ≤ last
  | named name =>
    match name with
    | "alpha" => c.isAlpha
    | "digit" => c.isDigit
    | "alnum" => c.isAlphanum
    | "upper" => c.isUpper
    | "lower" => c.isLower
    | "space" => c = ' ' || ('\t' ≤ c && c ≤ '\r')
    | "blank" => c = ' ' || c = '\t'
    | "punct" => '!' ≤ c && c ≤ '~' && !c.isAlphanum
    | "print" => ' ' ≤ c && c ≤ '~'
    | "graph" => '!' ≤ c && c ≤ '~'
    | "cntrl" => c < ' ' || c = '\x7f'
    | "xdigit" => c.isDigit || ('a' ≤ c && c ≤ 'f') || ('A' ≤ c && c ≤ 'F')
    | _ => false

end Range

inductive Glyph
  | one (c : Char)
  | any
  | many
  | set (negated : Bool) (ranges : List Range)
  deriving DecidableEq, Repr

abbrev Pattern := List Glyph

namespace Pattern

def isLetter (c : Char) (l : Letter) : Bool :=
  !l.quoted && l.char = c

def className? (letters : List Letter) : Option (String × List Letter) :=
  match letters with
  | a :: b :: rest =>
    if isLetter '[' a && isLetter ':' b then
      let name := (rest.map Letter.char).takeWhile Char.isAlpha
      match rest.drop name.length with
      | c :: d :: rest =>
        if isLetter ':' c && isLetter ']' d then some (String.ofList name, rest) else none
      | _ => none
    else none
  | _ => none

def ranges : (fuel : Nat) → (atStart : Bool) → List Letter → Option (List Range × List Letter)
  | 0, _, _ => none
  | fuel + 1, atStart, letters =>
    match className? letters, letters with
    | some (name, rest), _ =>
      (ranges fuel false rest).map fun (found, rest) => (.named name :: found, rest)
    | none, [] => none
    | none, l :: rest =>
      if isLetter ']' l && !atStart then some ([], rest)
      else
        match rest with
        | dash :: last :: after =>
          if isLetter '-' dash && !isLetter ']' last then
            (ranges fuel false after).map fun (found, rest) =>
              (.between l.char last.char :: found, rest)
          else
            (ranges fuel false rest).map fun (found, rest) =>
              (.between l.char l.char :: found, rest)
        | rest =>
          (ranges fuel false rest).map fun (found, rest) =>
            (.between l.char l.char :: found, rest)

def set? (letters : List Letter) : Option (Glyph × List Letter) :=
  let negated := letters.head?.any (isLetter '!')
  let body := if negated then letters.drop 1 else letters
  (ranges (body.length + 1) true body).map fun (found, rest) => (.set negated found, rest)

def ofLettersUpTo : (fuel : Nat) → List Letter → Pattern
  | 0, _ => []
  | _ + 1, [] => []
  | fuel + 1, l :: rest =>
    if isLetter '*' l then .many :: ofLettersUpTo fuel rest
    else if isLetter '?' l then .any :: ofLettersUpTo fuel rest
    else if isLetter '[' l then
      match set? rest with
      | some (glyph, rest) => glyph :: ofLettersUpTo fuel rest
      | none => .one l.char :: ofLettersUpTo fuel rest
    else .one l.char :: ofLettersUpTo fuel rest

def ofLetters (letters : List Letter) : Pattern :=
  ofLettersUpTo (letters.length + 1) letters

def unescape : List Letter → List Letter
  | ⟨false, '\\'⟩ :: l :: rest => ⟨true, l.char⟩ :: unescape rest
  | l :: rest => l :: unescape rest
  | [] => []

def accepts : Pattern → List Char → Bool
  | [], text => text.isEmpty
  | .many :: rest, text =>
    accepts rest text ||
      match text with
      | [] => false
      | _ :: text => accepts (.many :: rest) text
  | _ :: _, [] => false
  | .one c :: rest, d :: text => c = d && accepts rest text
  | .any :: rest, _ :: text => accepts rest text
  | .set negated found :: rest, d :: text =>
    found.any (·.holds d) ≠ negated && accepts rest text
termination_by p text => p.length + text.length

def lengths (p : Pattern) (atEnd : Bool) (text : List Char) : List Nat :=
  (List.range (text.length + 1)).filter fun n =>
    p.accepts (if atEnd then text.drop (text.length - n) else text.take n)

def trim (p : Pattern) (atEnd longest : Bool) (text : List Char) : List Char :=
  let found := p.lengths atEnd text
  match if longest then found.getLast? else found.head? with
  | none => text
  | some n => if atEnd then text.take (text.length - n) else text.drop n

end Pattern

end DeclBundle.Shell
