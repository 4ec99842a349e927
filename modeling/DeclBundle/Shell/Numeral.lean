import DeclBundle.Shell.Bytes

namespace DeclBundle.Shell

def isSpace (c : Char) : Bool := c = ' ' || ('\t' ≤ c && c ≤ '\r')

def takeSign : List Char → Bool × List Char
  | '-' :: rest => (true, rest)
  | '+' :: rest => (false, rest)
  | rest => (false, rest)

structure Numeral where
  value : Int
  rest : List Char

namespace Numeral

def digits? (base : Nat) (isDigit : Char → Bool) (text : List Char) : Option (Nat × List Char) :=
  let found := text.takeWhile isDigit
  if found.isEmpty then none else some (numberOf base found, text.drop found.length)

def marked? : List Char → Option (Nat × List Char)
  | '0' :: x :: d :: rest =>
    if (x = 'x' || x = 'X') && isHex d then digits? 16 isHex (d :: rest)
    else digits? 8 isOctal ('0' :: x :: d :: rest)
  | '0' :: rest => digits? 8 isOctal ('0' :: rest)
  | text => digits? 10 Char.isDigit text

def read? (marked : Bool) (text : List Char) : Option Numeral := do
  let (negative, body) := takeSign (text.dropWhile isSpace)
  let (n, rest) ← if marked then marked? body else digits? 10 Char.isDigit body
  return ⟨if negative then -n else n, rest⟩

def whole? (marked : Bool) (text : String) : Option Int := do
  let n ← read? marked text.toList
  guard (n.rest.all isSpace)
  return n.value

def fits (n : Int) : Bool :=
  Int64.minValue.toInt ≤ n && n ≤ Int64.maxValue.toInt

end Numeral

end DeclBundle.Shell
