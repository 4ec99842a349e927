import DeclBundle.FileSystem.Resolve
import DeclBundle.Shell.Numeral

namespace DeclBundle.Shell.Condition

inductive Kind
  | unary
  | binary
  | negation
  | junction
  | paren
  deriving DecidableEq

def unary : List String :=
  ["-r", "-w", "-x", "-e", "-f", "-d", "-c", "-b", "-p", "-u", "-g", "-k", "-s", "-t", "-z", "-n",
    "-h", "-O", "-G", "-L", "-S"]

def binary : List String :=
  ["=", "!=", "<", ">", "-eq", "-ne", "-ge", "-gt", "-le", "-lt", "-nt", "-ot", "-ef"]

def kind? (text : String) : Option Kind :=
  if unary.contains text then some .unary
  else if binary.contains text then some .binary
  else if text = "!" then some .negation
  else if text = "-a" || text = "-o" then some .junction
  else if text = "(" || text = ")" then some .paren
  else none

inductive Problem
  | unexpected (text : String)
  | argumentExpected (text : String)
  | closingExpected
  | illegalNumber (text : String)

def number (text : String) : Except Problem Int :=
  match Numeral.whole? false text with
  | some n => if Numeral.fits n then .ok n else .error (.illegalNumber text)
  | none => .error (.illegalNumber text)

def found? (fs : FileSystem) (follow : Bool) (path : String) : Option Entry :=
  (fs.find follow (pathOf path)).toOption.map Prod.snd

def isSame (fs : FileSystem) (a b : String) : Bool :=
  match fs.find true (pathOf a), fs.find true (pathOf b) with
  | .ok (l, _), .ok (k, _) => l = k
  | _, _ => false

def isNull (path : String) : Bool := path = "/dev/null"

def fileHolds (fs : FileSystem) (test path : String) : Bool :=
  match test with
  | "-e" | "-r" | "-w" | "-O" | "-G" => (found? fs true path).isSome
  | "-f" => !isNull path && (found? fs true path).any Entry.isFile
  | "-c" => isNull path
  | "-d" => (found? fs true path).any Entry.isDirectory
  | "-h" | "-L" => (found? fs false path).any Entry.isLink
  | "-x" =>
    match found? fs true path with
    | some (.file _ mode) => mode &&& 0o111 ≠ 0
    | some (.directory _) => true
    | _ => false
  | "-u" => hasBit 0o4000
  | "-g" => hasBit 0o2000
  | "-k" => hasBit 0o1000
  | "-s" =>
    match found? fs true path with
    | some (.file content _) => content.size > 0
    | some (.directory _) => true
    | _ => false
  | _ => false
where
  hasBit (bit : Nat) : Bool :=
    match found? fs true path with
    | some (.file _ mode) => mode &&& bit ≠ 0
    | some (.directory mode) => mode &&& bit ≠ 0
    | _ => false

def unaryHolds (fs : FileSystem) (test text : String) : Except Problem Bool := do
  match test with
  | "-z" => return text = ""
  | "-n" => return text ≠ ""
  | "-t" => do
    let _ ← number text
    return false
  | test => return fileHolds fs test text

def binaryHolds (fs : FileSystem) (a test b : String) : Except Problem Bool := do
  match test with
  | "=" => return a = b
  | "!=" => return a ≠ b
  | "<" => return a < b
  | ">" => return b < a
  | "-eq" => return (← number a) = (← number b)
  | "-ne" => return (← number a) ≠ (← number b)
  | "-ge" => return (← number a) ≥ (← number b)
  | "-gt" => return (← number a) > (← number b)
  | "-le" => return (← number a) ≤ (← number b)
  | "-lt" => return (← number a) < (← number b)
  | "-ef" => return isSame fs a b
  | _ => return false

inductive Lexeme
  | finish
  | operand
  | operator (text : String) (kind : Kind)

def lexeme : List String → Lexeme
  | [] => .finish
  | text :: rest =>
    match kind? text, rest with
    | none, _ => .operand
    | some .unary, [] => .operand
    | some .unary, [_] => .operator text .unary
    | some .unary, next :: _ =>
      if kind? next = some .binary then .operand else .operator text .unary
    | some .paren, [] => if text = "(" then .operand else .operator text .paren
    | some kind, _ => .operator text kind

abbrev Outcome := Except Problem (Bool × List String)

mutual

def disjunction (fs : FileSystem) : (fuel : Nat) → Lexeme → List String → Outcome
  | 0, _, args => return (false, args)
  | fuel + 1, first, args => do
    let (a, args) ← conjunction fs fuel first args
    match lexeme args.tail with
    | .operator "-o" _ => do
      let (b, args) ← disjunction fs fuel (lexeme (args.drop 2)) (args.drop 2)
      return (a || b, args)
    | _ => return (a, args)

def conjunction (fs : FileSystem) : (fuel : Nat) → Lexeme → List String → Outcome
  | 0, _, args => return (false, args)
  | fuel + 1, first, args => do
    let (a, args) ← negation fs fuel first args
    match lexeme args.tail with
    | .operator "-a" _ => do
      let (b, args) ← conjunction fs fuel (lexeme (args.drop 2)) (args.drop 2)
      return (a && b, args)
    | _ => return (a, args)

def negation (fs : FileSystem) : (fuel : Nat) → Lexeme → List String → Outcome
  | 0, _, args => return (false, args)
  | fuel + 1, first, args => do
    match first with
    | .operator _ .negation => do
      let next := lexeme args.tail
      let args := if args.tail.isEmpty then args else args.tail
      let (a, args) ← negation fs fuel next args
      return (!a, args)
    | first => primary fs fuel first args

def primary (fs : FileSystem) : (fuel : Nat) → Lexeme → List String → Outcome
  | 0, _, args => return (false, args)
  | fuel + 1, first, args => do
    match first, args with
    | .finish, args => return (false, args)
    | .operator "(" _, _ :: rest => do
      match lexeme rest with
      | .operator ")" _ => return (false, rest)
      | next => do
        let (a, args) ← disjunction fs fuel next rest
        match lexeme args.tail with
        | .operator ")" _ => return (a, args.tail)
        | _ => throw .closingExpected
    | .operator test .unary, _ :: rest =>
      match rest with
      | [] => throw (.argumentExpected test)
      | text :: _ => return (← unaryHolds fs test text, rest)
    | _, text :: rest =>
      match lexeme rest, rest with
      | .operator test .binary, _ :: b :: more =>
        return (← binaryHolds fs text test b, b :: more)
      | .operator test .binary, _ => throw (.argumentExpected test)
      | _, _ => return (text ≠ "", args)
    | _, [] => return (false, [])

end

def holds (fs : FileSystem) (args : List String) : Except Problem Bool := do
  let fuel := 5 * (args.length + 1)
  let (value, rest) ←
    match args with
    | [] => pure (false, [])
    | [_, operator, _] =>
      if kind? operator = some .binary then disjunction fs fuel .operand args
      else bracketed fuel args
    | ["!", a, b, c] => pure (!(← holds fs [a, b, c]), [])
    | args => if args.length = 4 then bracketed fuel args else plain fuel args
  match rest with
  | text :: _ :: _ => throw (.unexpected text)
  | _ => return value
where
  plain (fuel : Nat) (args : List String) : Outcome :=
    disjunction fs fuel (lexeme args) args
  bracketed (fuel : Nat) (args : List String) : Outcome :=
    match args with
    | "(" :: rest =>
      if args.getLast? = some ")" then plain fuel rest.dropLast else plain fuel args
    | "!" :: _ => disjunction fs fuel (.operator "!" .negation) args
    | args => plain fuel args

namespace Problem

def message : Problem → String
  | unexpected text => about text ++ "unexpected operator"
  | argumentExpected text => about text ++ "argument expected"
  | closingExpected => "closing paren expected"
  | illegalNumber text => "Illegal number: " ++ text
where
  about (text : String) : String := if text = "" then "" else text ++ ": "

end Problem

end DeclBundle.Shell.Condition
