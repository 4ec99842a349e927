import DeclBundle.Shell.Numeral
import DeclBundle.Shell.Script

namespace DeclBundle.Shell.Arithmetic

inductive Symbol
  | number (n : Int64)
  | name (text : String)
  | sign (text : String)
  deriving DecidableEq

inductive Problem
  | expecting (what : String)
  | divisionByZero
  | illegalNumber (text : String)

abbrev Values := List (String × String)

abbrev Reading := StateT Values (Except Problem)

def digitOf? (base : Nat) (c : Char) : Option Nat :=
  let n :=
    if c.isDigit then c.toNat - '0'.toNat
    else if c.isAlpha then c.toLower.toNat - 'a'.toNat + 10
    else base
  if n < base then some n else none

def digits (base : Nat) (text : List Char) : Nat × List Char :=
  let found := text.takeWhile fun c => (digitOf? base c).isSome
  (found.foldl (fun n c => base * n + (digitOf? base c).getD 0) 0, text.drop found.length)

def clamp (n : Int) : Int64 :=
  Int64.ofIntClamp n

def natural (text : List Char) : Nat × List Char :=
  match text with
  | '0' :: x :: d :: rest =>
    if (x = 'x' || x = 'X') && (digitOf? 16 d).isSome then digits 16 (d :: rest)
    else digits 8 text
  | '0' :: _ => digits 8 text
  | text => digits 10 text

def number? (text : String) : Option Int64 :=
  if text.toList.all isSpace then some 0
  else
    match Numeral.whole? true text with
    | some n => if Numeral.fits n then some (Int64.ofInt n) else none
    | none => none

def signs : List String :=
  ["<<=", ">>=", "==", "!=", "<=", ">=", "<<", ">>", "&&", "||", "+=", "-=", "*=", "/=", "%=",
    "&=", "|=", "^=", "+", "-", "*", "/", "%", "<", ">", "=", "!", "~", "&", "|", "^", "?", ":",
    "(", ")"]

def symbols : (fuel : Nat) → List Char → List Symbol
  | 0, _ => []
  | _ + 1, [] => []
  | fuel + 1, c :: rest =>
    let text := c :: rest
    if c = ' ' || c = '\t' || c = '\n' then symbols fuel rest
    else if c.isDigit then
      let (n, rest) := natural text
      .number (clamp n) :: symbols fuel rest
    else if isNameStart c then
      let name := text.takeWhile isNameChar
      .name (String.ofList name) :: symbols fuel (text.drop name.length)
    else
      match signs.find? fun s => s.toList.isPrefixOf text with
      | some s => .sign s :: symbols fuel (text.drop s.length)
      | none => [.sign ""]

def value (name : String) : Reading Int64 := do
  let text := ((← get).lookup name).getD ""
  match number? text with
  | some n => return n
  | none => throw (.illegalNumber text)

def truth (b : Bool) : Int64 := if b then 1 else 0

def apply (sign : String) (a b : Int64) : Reading Int64 := do
  match sign with
  | "*" => return a * b
  | "/" => if b = 0 then throw .divisionByZero else return a / b
  | "%" => if b = 0 then throw .divisionByZero else return a % b
  | "+" => return a + b
  | "-" => return a - b
  | "<<" => return a <<< b
  | ">>" => return a >>> b
  | "<" => return truth (a < b)
  | "<=" => return truth (a ≤ b)
  | ">" => return truth (b < a)
  | ">=" => return truth (b ≤ a)
  | "==" => return truth (a = b)
  | "!=" => return truth (a ≠ b)
  | "&" => return a &&& b
  | "^" => return a ^^^ b
  | "|" => return a ||| b
  | _ => return b

def levels : List (List String) :=
  [["||"], ["&&"], ["|"], ["^"], ["&"], ["==", "!="], ["<", "<=", ">", ">="], ["<<", ">>"],
    ["+", "-"], ["*", "/", "%"]]

def changing? (sign : String) : Option String :=
  if ["+=", "-=", "*=", "/=", "%=", "<<=", ">>=", "&=", "|=", "^="].contains sign then
    some (String.ofList sign.toList.dropLast)
  else none

abbrev Read := List Symbol → Reading (Int64 × List Symbol)

mutual

def assignment : (fuel : Nat) → (idle : Bool) → Read
  | 0, _, _ => throw (.expecting "primary")
  | fuel + 1, idle, symbols => do
    match symbols with
    | .name name :: .sign sign :: rest =>
      if sign = "=" || (changing? sign).isSome then
        let (b, rest) ← assignment fuel idle rest
        if idle then return (b, rest)
        let b ← match changing? sign with
          | some operator => do apply operator (← value name) b
          | none => pure b
        modify ((name, toString b.toInt) :: ·)
        return (b, rest)
      else conditional fuel idle symbols
    | symbols => conditional fuel idle symbols

def conditional : (fuel : Nat) → (idle : Bool) → Read
  | 0, _, _ => throw (.expecting "primary")
  | fuel + 1, idle, symbols => do
    match ← binary fuel idle levels symbols with
    | (a, .sign "?" :: rest) => do
      match ← assignment fuel (idle || a = 0) rest with
      | (b, .sign ":" :: rest) => do
        let (c, rest) ← conditional fuel (idle || a ≠ 0) rest
        return (if a ≠ 0 then b else c, rest)
      | _ => throw (.expecting "':'")
    | result => return result

def binary : (fuel : Nat) → (idle : Bool) → List (List String) → Read
  | 0, _, _, _ => throw (.expecting "primary")
  | fuel + 1, idle, [], symbols => primary fuel idle symbols
  | fuel + 1, idle, operators :: tighter, symbols => do
    let (a, rest) ← binary fuel idle tighter symbols
    more fuel idle operators tighter a rest

def more : (fuel : Nat) → (idle : Bool) → List String → List (List String) → Int64 → Read
  | 0, _, _, _, _, _ => throw (.expecting "primary")
  | fuel + 1, idle, operators, tighter, a, symbols => do
    match symbols with
    | .sign sign :: rest =>
      if operators.contains sign then
        let skips := (sign = "||" && a ≠ 0) || (sign = "&&" && a = 0)
        let (b, rest) ← binary fuel (idle || skips) tighter rest
        let next ←
          if sign = "||" then pure (truth (a ≠ 0 || b ≠ 0))
          else if sign = "&&" then pure (truth (a ≠ 0 && b ≠ 0))
          else if idle then pure b
          else apply sign a b
        more fuel idle operators tighter next rest
      else return (a, symbols)
    | symbols => return (a, symbols)

def primary : (fuel : Nat) → (idle : Bool) → Read
  | 0, _, _ => throw (.expecting "primary")
  | fuel + 1, idle, symbols => do
    match symbols with
    | .number n :: rest => return (n, rest)
    | .name name :: rest => do
      let n ← if idle then pure 0 else value name
      return (n, rest)
    | .sign "(" :: rest => do
      match ← assignment fuel idle rest with
      | (n, .sign ")" :: rest) => return (n, rest)
      | _ => throw (.expecting "')'")
    | .sign "+" :: rest => primary fuel idle rest
    | .sign "-" :: rest => do
      let (n, rest) ← primary fuel idle rest
      return (-n, rest)
    | .sign "!" :: rest => do
      let (n, rest) ← primary fuel idle rest
      return (truth (n = 0), rest)
    | .sign "~" :: rest => do
      let (n, rest) ← primary fuel idle rest
      return (~~~n, rest)
    | _ => throw (.expecting "primary")

end

def evaluate (text : String) (values : Values) : Except Problem (Int64 × Values) := do
  let all := symbols (text.length + 1) text.toList
  let fuel := 30 * (all.length + 1)
  let ((n, rest), values) ← (assignment fuel false all).run values
  if rest.isEmpty then return (n, values) else throw (.expecting "EOF")

def Problem.message (text : String) : Problem → String
  | expecting what => "arithmetic expression: expecting " ++ what ++ ": \"" ++ text ++ "\""
  | divisionByZero => "arithmetic expression: division by zero: \"" ++ text ++ "\""
  | illegalNumber value => "Illegal number: " ++ value

end DeclBundle.Shell.Arithmetic
