import DeclBundle.Shell.Condition
import DeclBundle.Shell.Job

namespace DeclBundle.Shell.Utility

namespace Testing

structure Setting where
  files : FileSystem
  last : String
  closed : Bool

abbrev Reading := ReaderT Setting (StateT (List String) (Except String))

def beyond {α : Type} : Reading α := do
  throw ("missing argument after " ++ Quote.escaped (← read).last)

def advance : Reading Unit := modify (List.drop 1)

def advanceTo : Reading Unit := do
  advance
  if (← get).isEmpty then beyond

def one : Reading Bool := do
  let text := (← get).headD ""
  advance
  return text ≠ ""

def isBinary (text : String) : Bool :=
  ["=", "!=", "==", "-nt", "-ot", "-ef", "-eq", "-ne", "-lt", "-le", "-gt", "-ge"].contains text

def isOption (text : String) : Bool :=
  text.length = 2 && text.toList.head? = some '-'

def integer (text : String) : Reading Int :=
  match Numeral.whole? false text with
  | some n => return n
  | none => throw ("invalid integer " ++ Quote.escaped text)

def unary : Reading Bool := do
  let option := (← get).headD ""
  if !"eNrwxOGfdsScbpLhugktnz".toList.any fun c => option = String.ofList ['-', c] then
    throw (Quote.escaped option ++ ": unary operator expected")
  advanceTo
  let text := (← get).headD ""
  advance
  match option with
  | "-n" => return text ≠ ""
  | "-z" => return text = ""
  | "-t" => do
    let _ ← integer text
    return false
  | option => return Condition.fileHolds (← read).files option text

def operand (isLength : Bool) (text : String) : Reading Int :=
  if isLength then return text.length else integer text

def binary (isLength : Bool) : Reading Bool := do
  if isLength then advance
  let args ← get
  let a := args.headD ""
  let operator := (args.drop 1).headD ""
  let isLength' := args.length > 3 && (args.drop 2).headD "" = "-l"
  if isLength' then advance
  let left := (← get).headD ""
  let b := ((← get).drop 2).headD ""
  let compared (f : Int → Int → Bool) : Reading Bool := do
    let a ← operand isLength a
    let b ← operand isLength' b
    modify (List.drop 3)
    return f a b
  let decided (holds : Bool) : Reading Bool := do
    modify (List.drop 3)
    return holds
  let fs := (← read).files
  match operator with
  | "=" | "==" => decided (left = b)
  | "!=" => decided (left ≠ b)
  | "-eq" => compared (· = ·)
  | "-ne" => compared (· ≠ ·)
  | "-lt" => compared (· < ·)
  | "-le" => compared (· ≤ ·)
  | "-gt" => compared (· > ·)
  | "-ge" => compared (· ≥ ·)
  | "-ef" =>
    if isLength || isLength' then throw "-ef does not accept -l"
    decided (Condition.isSame fs a b)
  | "-nt" =>
    if isLength || isLength' then throw "-nt does not accept -l"
    decided ((Condition.found? fs true a).isSome && (Condition.found? fs true b).isNone)
  | _ =>
    if isLength || isLength' then throw "-ot does not accept -l"
    decided ((Condition.found? fs true a).isNone && (Condition.found? fs true b).isSome)

def two : Reading Bool := do
  let first := (← get).headD ""
  if first = "!" then
    advance
    return !(← one)
  else if isOption first then unary
  else beyond

mutual

def disjunction : (fuel : Nat) → Reading Bool
  | 0 => return false
  | fuel + 1 => do
    let a ← conjunction fuel
    if (← get).head? = some "-o" then
      advance
      return (← disjunction fuel) || a
    else return a

def conjunction : (fuel : Nat) → Reading Bool
  | 0 => return false
  | fuel + 1 => do
    let a ← term fuel
    if (← get).head? = some "-a" then
      advance
      return (← conjunction fuel) && a
    else return a

def term : (fuel : Nat) → Reading Bool
  | 0 => return false
  | fuel + 1 => do
    match ← get with
    | [] => beyond
    | "!" :: _ => do
      advanceTo
      return !(← term fuel)
    | "(" :: _ => do
      advanceTo
      let args ← get
      let inside := ((args.drop 1).takeWhile (· ≠ ")")).length + 1
      let a ← counted (if inside > 4 then args.length else inside) fuel
      match (← get).head? with
      | some ")" => do
        advance
        return a
      | some other => throw ("')' expected, found " ++ Quote.escaped other)
      | none => throw ("')' expected" ++ if (← read).closed then ", found ']'" else "")
    | args =>
      if args.length > 3 && args.head? = some "-l" && isBinary ((args.drop 2).headD "") then
        binary true
      else if args.length > 2 && isBinary ((args.drop 1).headD "") then binary false
      else if isOption (args.headD "") then unary
      else one

def three : (fuel : Nat) → Reading Bool
  | 0 => return false
  | fuel + 1 => do
    let args ← get
    let middle := (args.drop 1).headD ""
    if isBinary middle then binary false
    else if args.head? = some "!" then
      advanceTo
      return !(← two)
    else if args.head? = some "(" && (args.drop 2).head? = some ")" then
      advance
      let a ← one
      advance
      return a
    else if middle = "-a" || middle = "-o" then disjunction fuel
    else throw (Quote.escaped middle ++ ": binary operator expected")

def counted : (count fuel : Nat) → Reading Bool
  | _, 0 => return false
  | 1, _ => one
  | 2, _ => two
  | 3, fuel + 1 => three fuel
  | 4, fuel + 1 => do
    let args ← get
    if args.head? = some "!" then
      advanceTo
      return !(← three fuel)
    else if args.head? = some "(" && (args.drop 3).head? = some ")" then
      advance
      let a ← two
      advance
      return a
    else disjunction fuel
  | _, fuel + 1 => disjunction fuel

end

/-- Whether the condition that some arguments are holds. -/
def holds (fs : FileSystem) (closed : Bool) (args : List String) : Except String Bool :=
  if args.isEmpty then return false
  else
    match (counted args.length (8 * args.length + 8)).run ⟨fs, args.getLastD "", closed⟩ args with
    | .ok (value, []) => return value
    | .ok (_, extra :: _) => throw ("extra argument " ++ Quote.escaped extra)
    | .error problem => throw problem

end Testing

def test (closed : Bool) : Utility := fun args => do
  let args ← if !closed then pure args
    else if args.getLast? = some "]" then pure args.dropLast
    else Work.fail 2 "missing ']'"
  match Testing.holds (← Work.files) closed args with
  | .ok value => Work.settle (if value then 0 else 1)
  | .error problem => Work.fail 2 problem

end DeclBundle.Shell.Utility
