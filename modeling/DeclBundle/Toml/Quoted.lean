namespace DeclBundle.Toml

def isBlank (c : Char) : Bool := c = ' ' || c = '\t'

def isPlain (c : Char) : Bool := c = '\t' || (' ' ≤ c && c ≠ '\x7f')

def startsLine : List Char → Bool
  | '\n' :: _ => true
  | '\r' :: '\n' :: _ => true
  | _ => false

namespace Quoted

def hexDigit? (c : Char) : Option Nat :=
  if '0' ≤ c && c ≤ '9' then some (c.toNat - '0'.toNat)
  else if 'a' ≤ c && c ≤ 'f' then some (c.toNat - 'a'.toNat + 10)
  else if 'A' ≤ c && c ≤ 'F' then some (c.toNat - 'A'.toNat + 10)
  else none

def numbered? (digits : List Char) : Option Char := do
  let values ← digits.mapM hexDigit?
  let n := values.foldl (fun n d => 16 * n + d) 0
  if n.isValidChar then some (Char.ofNat n) else none

def escaped? : Char → Option Char
  | 'b' => some '\x08'
  | 't' => some '\t'
  | 'n' => some '\n'
  | 'f' => some '\x0c'
  | 'r' => some '\r'
  | 'e' => some '\x1b'
  | '"' => some '"'
  | '\\' => some '\\'
  | _ => none

abbrev Read := Option (List Char × List Char)

def push (c? : Option Char) (later : Read) : Read :=
  match c?, later with
  | some c, some (text, rest) => some (c :: text, rest)
  | _, _ => none

def basic : List Char → Read
  | [] => none
  | '"' :: r => some ([], r)
  | '\\' :: 'x' :: a :: b :: r => push (numbered? [a, b]) (basic r)
  | '\\' :: 'u' :: a :: b :: c :: d :: r => push (numbered? [a, b, c, d]) (basic r)
  | '\\' :: 'U' :: a :: b :: c :: d :: e :: f :: g :: h :: r =>
    push (numbered? [a, b, c, d, e, f, g, h]) (basic r)
  | '\\' :: c :: r => push (escaped? c) (basic r)
  | c :: r => push (if isPlain c then some c else none) (basic r)

def literal : List Char → Read
  | [] => none
  | '\'' :: r => some ([], r)
  | c :: r => push (if isPlain c then some c else none) (literal r)

/-- Up to three double quotes, with escapes. After an escaped line end, `skipping` leaves out all
blanks and line ends up to the next other character. Two further quotes may come before the
closing ones. -/
def basicLines (skipping : Bool) : List Char → Read
  | [] => none
  | '\n' :: r => if skipping then basicLines true r else push (some '\n') (basicLines false r)
  | '\r' :: '\n' :: r =>
    if skipping then basicLines true r
    else push (some '\r') (push (some '\n') (basicLines false r))
  | '"' :: '"' :: '"' :: '"' :: '"' :: r => some (['"', '"'], r)
  | '"' :: '"' :: '"' :: '"' :: r => some (['"'], r)
  | '"' :: '"' :: '"' :: r => some ([], r)
  | '\\' :: 'x' :: a :: b :: r => push (numbered? [a, b]) (basicLines false r)
  | '\\' :: 'u' :: a :: b :: c :: d :: r => push (numbered? [a, b, c, d]) (basicLines false r)
  | '\\' :: 'U' :: a :: b :: c :: d :: e :: f :: g :: h :: r =>
    push (numbered? [a, b, c, d, e, f, g, h]) (basicLines false r)
  | '\\' :: c :: r =>
    if startsLine ((c :: r).dropWhile isBlank) then basicLines true (c :: r)
    else push (escaped? c) (basicLines false r)
  | c :: r =>
    if skipping && isBlank c then basicLines true r
    else push (if isPlain c then some c else none) (basicLines false r)

def literalLines : List Char → Read
  | [] => none
  | '\'' :: '\'' :: '\'' :: '\'' :: '\'' :: r => some (['\'', '\''], r)
  | '\'' :: '\'' :: '\'' :: '\'' :: r => some (['\''], r)
  | '\'' :: '\'' :: '\'' :: r => some ([], r)
  | '\r' :: '\n' :: r => push (some '\r') (push (some '\n') (literalLines r))
  | c :: r => push (if isPlain c || c = '\n' then some c else none) (literalLines r)

def dropLineEnd : List Char → List Char
  | '\n' :: r => r
  | '\r' :: '\n' :: r => r
  | r => r

def line? : List Char → Read
  | '"' :: r => basic r
  | '\'' :: r => literal r
  | _ => none

def read? : List Char → Read
  | '"' :: '"' :: '"' :: r => basicLines false (dropLineEnd r)
  | '\'' :: '\'' :: '\'' :: r => literalLines (dropLineEnd r)
  | r => line? r

end Quoted

end DeclBundle.Toml
