import DeclBundle.Shell.Script

namespace DeclBundle.Shell

inductive Token
  | word (w : Word)
  | keyword (text : String)
  | sign (text : String)
  | redirect (stream : Option Nat) (text : String)
  | newline
  | finish

namespace Token

def shown : Token → String
  | word _ => "word"
  | keyword text => "\"" ++ text ++ "\""
  | sign text => "\"" ++ text ++ "\""
  | redirect _ _ => "redirection"
  | newline => "newline"
  | finish => "end of file"

def is (text : String) : Token → Bool
  | keyword t => t = text
  | sign t => t = text
  | _ => false

def isNewline : Token → Bool
  | newline => true
  | _ => false

def isFinish : Token → Bool
  | finish => true
  | _ => false

end Token

structure Fault where
  line : Nat
  text : String

structure Awaited where
  number : Nat
  mark : List Char
  verbatim : Bool
  dropsTabs : Bool

structure Inserted where
  name : String
  left : Nat
  endsInBlank : Bool

structure Source where
  rest : List Char
  line : Nat
  pushed : Option Token
  awaited : List Awaited
  documents : List (Nat × Word)
  nextNumber : Nat
  aliases : List (String × String)
  inserted : List Inserted

abbrev Reader := StateT Source (Except Fault)

namespace Source

def ofText (text : List Char) (nextNumber : Nat) : Source :=
  ⟨text, 1, none, [], [], nextNumber, [], []⟩

def current (s : Source) : List Inserted :=
  s.inserted.filter fun i => i.left ≤ s.rest.length

def joinLines : List Char → List Char × Nat
  | '\\' :: '\n' :: r =>
    let (r, n) := joinLines r
    (r, n + 1)
  | r => (r, 0)

end Source

namespace Reader

def complain {α : Type} (text : String) : Reader α := do
  throw ⟨(← get).line, "Syntax error: " ++ text⟩

def unexpected {α : Type} (t : Token) : Reader α :=
  complain (t.shown ++ " unexpected")

def unexpectedFor {α : Type} (t : Token) (wanted : String) : Reader α :=
  complain (t.shown ++ " unexpected (expecting " ++ wanted ++ ")")

def peek? : Reader (Option Char) := do
  let s ← get
  let (rest, joined) := Source.joinLines s.rest
  set { s with rest := rest, line := s.line + joined }
  return rest.head?

def raw? : Reader (Option Char) := do
  let s ← get
  match s.rest with
  | [] => return none
  | c :: rest =>
    set { s with rest := rest, line := if c = '\n' then s.line + 1 else s.line }
    return some c

def next? : Reader (Option Char) := do
  let _ ← peek?
  raw?

def skip? (c : Char) : Reader Bool := do
  if (← peek?) = some c then
    let _ ← raw?
    return true
  else return false

def takeWhile (test : Char → Bool) : (fuel : Nat) → Reader (List Char)
  | 0 => return []
  | fuel + 1 => do
    match ← peek? with
    | some c =>
      if test c then
        let _ ← raw?
        return c :: (← takeWhile test fuel)
      else return []
    | none => return []

def supply : Reader Nat := do
  return (← get).rest.length + 1

end Reader

end DeclBundle.Shell
