import DeclBundle.Shell.Arithmetic
import DeclBundle.Shell.Field
import DeclBundle.Shell.Machine

namespace DeclBundle.Shell

inductive Role
  | arguments
  | value
  | text
  | document
  deriving DecidableEq

abbrev Capture := Command → Act String

namespace Expansion

open Act

def plain (chars : List Char) : List Atom := chars.map (.char false)

def home? (user : String) : Act (Option String) :=
  if user = "" then value? "HOME" else return if user = "root" then some "/root" else none

def homed (goesOn : Bool) (chars : List Char) : Act (List Atom) := do
  match chars with
  | '~' :: rest => do
    let user := rest.takeWhile (· ≠ '/')
    let after := rest.drop user.length
    if after.isEmpty && goesOn then return plain chars
    match ← home? (String.ofList user) with
    | some home => return Atom.ofText true home ++ plain after
    | none => return plain chars
  | chars => return plain chars

def bare (role : Role) (atStart goesOn : Bool) (chars : List Char) : Act (List Atom) := do
  match role with
  | .document => return plain chars
  | .value => do
    let pieces := ((String.ofList chars).splitOn ":").map String.toList
    let found ← pieces.zipIdx.mapM fun (piece, k) =>
      if k = 0 && !atStart then pure (plain piece)
      else homed (goesOn && k + 1 = pieces.length) piece
    return [Atom.char false ':'].intercalate found
  | _ => if atStart then homed goesOn chars else return plain chars

def separators : Act (List Char) := return ((← value? "IFS").getD " \t\n").toList

def argumentAtoms (quoted : Bool) (args : List String) : List Atom :=
  [Atom.cut].intercalate (args.map fun arg =>
    (if quoted then [Atom.mark] else []) ++ Atom.ofText quoted arg)

def allArguments (role : Role) (quoted : Bool) (name : String) : Act (List Atom) := do
  let args := (← get).args
  if role = .arguments && (name = "@" || !quoted) then
    return argumentAtoms quoted args
  else
    let between := ((← separators).take 1).map (Atom.char true)
    return between.intercalate (args.map (Atom.ofText quoted))

def parameterAtoms? (role : Role) (quoted : Bool) (name : String) : Act (Option (List Atom)) := do
  if name = "@" || name = "*" then return some (← allArguments role quoted name)
  else return (← parameter? name).map (Atom.ofText quoted)

def parameterAtoms (role : Role) (quoted : Bool) (name : String) : Act (List Atom) := do
  match ← parameterAtoms? role quoted name with
  | some atoms => return atoms
  | none => do
    if ← hasOption 'u' then fail 2 (name ++ ": parameter not set")
    return []

def holdsNone (args : List String) : Word → Bool
  | .parameter true "@" .value :: rest =>
    args.isEmpty &&
      match rest with
      | .text true [] :: _ => true
      | .text quoted _ :: _ => !quoted
      | .parameter quoted _ _ :: _ => !quoted
      | .output quoted _ :: _ => !quoted
      | .sum quoted _ :: _ => !quoted
      | [] => true
  | _ => false

def sum (text : String) : Act Int64 := do
  let before := (← get).store.filterMap fun (name, v) => v.value.map (name, ·)
  match Arithmetic.evaluate text before with
  | .error problem => fail 2 (problem.message text)
  | .ok (n, after) => do
    (after.take (after.length - before.length)).reverse.forM fun (name, value) => assign name value
    return n

def isMarked (c : Char) : Bool := "!*?[]=~:/-^".toList.contains c

/-- All arguments, without a part at one end that is accepted. They are one text with a NUL after
each, and what is accepted ends at a NUL. If the first has characters that are marked, only its
parts are looked at, and one at the end of it stands for one as long at the end of the text. -/
def trimAll (p : Pattern) (quoted atEnd longest : Bool) (args : List (List Char)) :
    List (List Char) :=
  let text := ['\x00'].intercalate args
  let first := args.headD []
  let alone := quoted && first.any isMarked
  let upTo (n : Nat) : List Nat := List.range (n + 1)
  let piece (n : Nat) : List Char := (text.drop n).takeWhile (· ≠ '\x00')
  let cut := match atEnd, longest with
    | true, true => (upTo first.length).find? fun n => p.accepts (first.drop n)
    | true, false =>
      if alone then
        ((upTo first.length).find? fun n => p.accepts (first.drop (first.length - n))).map
          (text.length - ·)
      else (upTo text.length).reverse.find? fun n => p.accepts (piece n)
    | false, false => (upTo first.length).find? fun n => p.accepts (first.take n)
    | false, true =>
      let found := (upTo first.length).reverse.find? fun n => p.accepts (first.take n)
      if alone then found.map fun n => text.length - (first.length - n)
      else if found = some first.length then some text.length else found
  let kept := match cut with
    | none => text
    | some n => if atEnd then text.take n else text.drop n
  ((String.ofList kept).splitOn "\x00").map String.toList

mutual

def atoms (capture : Capture) (role : Role) (atStart : Bool) : Word → Act (List Atom)
  | [] => return []
  | part :: rest => do
    let first ← partAtoms capture role atStart rest part
    let others ← atoms capture role false rest
    return first ++ others

def partAtoms (capture : Capture) (role : Role) (atStart : Bool) (rest : Word) :
    Part → Act (List Atom)
  | .text true [] => do
    let args := (← get).args
    return if holdsNone args rest then [] else [.mark]
  | .text true content => return content.map (.char true)
  | .text false content => bare role atStart (!rest.isEmpty) content
  | .parameter quoted name use => useAtoms capture role quoted name use
  | .output quoted body => do
    let text ← capture body
    return Atom.ofText quoted text
  | .sum quoted expression => do
    let found ← atoms capture .document false expression
    let n ← sum (Field.joined found)
    return Atom.ofText quoted (toString n.toInt)

def useAtoms (capture : Capture) (role : Role) (quoted : Bool) (name : String) :
    Use → Act (List Atom)
  | .value => parameterAtoms role quoted name
  | .size => do
    if name = "@" || name = "*" then
      let args := (← get).args
      return Atom.ofText quoted (toString (" ".intercalate args).length)
    let found ← parameterAtoms .document quoted name
    return Atom.ofText quoted (toString (Field.joined found).length)
  | .otherwise kind evenEmpty word => do
    let value := (← parameterAtoms? role quoted name).filter fun found =>
      !evenEmpty || Field.joined found ≠ ""
    match value, kind with
    | some _, .instead => do
      let found ← atoms capture role true word
      return if quoted then found else found.map Atom.loosened
    | some found, _ => return found
    | none, .instead => return []
    | none, .use => do
      let found ← atoms capture role true word
      return if quoted then found else found.map Atom.loosened
    | none, .assign => do
      let text := Field.joined (← atoms capture .text true word)
      if !Shell.isName name.toList then fail 2 (name ++ ": bad variable name")
      assign name text
      return Atom.ofText quoted text
    | none, .refuse => do
      if word.isEmpty then
        fail 2 (name ++ ": parameter not set" ++ if evenEmpty then " or null" else "")
      let text := Field.joined (← atoms capture .text true word)
      fail 2 (name ++ ": " ++ text)
  | .trimmed atEnd longest word => do
    let args := (← get).args
    if role = .arguments && 1 < args.length && (name = "@" || (name = "*" && !quoted)) then
      let letters := Field.letters (← atoms capture .text true word)
      let pattern := Pattern.ofLetters (Pattern.unescape letters)
      let kept := trimAll pattern quoted atEnd longest (args.map String.toList)
      return argumentAtoms quoted (kept.map String.ofList)
    let text := Field.joined (← parameterAtoms .document quoted name)
    let letters := Field.letters (← atoms capture .text true word)
    let pattern := Pattern.ofLetters (Pattern.unescape letters)
    return Atom.ofText quoted (String.ofList (pattern.trim atEnd longest text.toList))
  | .unknown => fail 2 "Bad substitution"

end

def text (capture : Capture) (role : Role) (w : Word) : Act String := do
  return Field.joined (← atoms capture role true w)

def fields (capture : Capture) (w : Word) : Act (List String) := do
  let found := Field.split (← separators) .fresh (← atoms capture .arguments true w)
  if ← hasOption 'f' then return found.map Field.text
  else
    let fs ← files
    return found.flatMap (Field.expand fs)

def accepted (capture : Capture) (subject : String) : List Word → Act Bool
  | [] => return false
  | w :: rest => do
    let letters := Field.letters (← atoms capture .text true w)
    if (Pattern.ofLetters (Pattern.unescape letters)).accepts subject.toList then return true
    else accepted capture subject rest

end Expansion

end DeclBundle.Shell
