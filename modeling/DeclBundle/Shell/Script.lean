namespace DeclBundle.Shell

inductive Fallback
  | use
  | assign
  | refuse
  | instead
  deriving DecidableEq, Repr

inductive Opening
  | emptied
  | forced
  | appended
  | kept
  deriving DecidableEq, Repr

mutual

inductive Part
  | text (quoted : Bool) (content : List Char)
  | parameter (quoted : Bool) (name : String) (use : Use)
  | output (quoted : Bool) (body : Command)
  | sum (quoted : Bool) (expression : List Part)

inductive Use
  | value
  | size
  | otherwise (kind : Fallback) (evenEmpty : Bool) (word : List Part)
  | trimmed (atEnd longest : Bool) (pattern : List Part)
  | unknown

inductive Redirect
  | write (stream : Nat) (opening : Opening) (target : List Part)
  | read (stream : Nat) (target : List Part)
  | copy (stream : Nat) (source : List Part)
  | document (stream number : Nat)

inductive Command
  | nothing
  | simple (line : Nat) (assignments : List (String × List Part)) (words : List (List Part))
      (redirects : List Redirect)
  | redirected (line : Nat) (body : Command) (redirects : List Redirect)
  | seq (first second : Command)
  | and (first second : Command)
  | or (first second : Command)
  | not (body : Command)
  | pipe (stages : List Command)
  | branch (condition yes no : Command)
  | loop (negated : Bool) (condition body : Command)
  | each (line : Nat) (name : String) (words : Option (List (List Part))) (body : Command)
  | choice (line : Nat) (subject : List Part) (cases : List (List (List Part) × Command))
  | subshell (line : Nat) (body : Command)
  | background (body : Command)
  | define (name : String) (body : Command)

end

abbrev Word := List Part

instance : Inhabited Command := ⟨.nothing⟩

def isNameStart (c : Char) : Bool := c.isAlpha || c = '_'

def isNameChar (c : Char) : Bool := c.isAlphanum || c = '_'

def isName (text : List Char) : Bool :=
  text.head?.any isNameStart && text.all isNameChar

namespace Word

def plain? : Word → Option String
  | [.text false content] => some (String.ofList content)
  | _ => none

def bare : Word → List Char
  | [] => []
  | .text _ content :: rest => content ++ bare rest
  | .parameter _ name _ :: rest => '$' :: name.toList ++ bare rest
  | _ :: rest => bare rest

def isQuoted (w : Word) : Bool :=
  w.any fun
    | .text quoted _ => quoted
    | _ => false

def assignment? : Word → Option (String × Word)
  | .text false content :: rest =>
    let name := content.takeWhile (· ≠ '=')
    match content.drop name.length with
    | _ :: value =>
      if Shell.isName name then
        some (String.ofList name, if value.isEmpty then rest else .text false value :: rest)
      else none
    | [] => none
  | _ => none

def push : Part → Word → Word
  | .text q content, .text q' others :: rest =>
    if q = q' && !content.isEmpty then .text q (content ++ others) :: rest
    else .text q content :: .text q' others :: rest
  | part, rest => part :: rest

end Word

end DeclBundle.Shell
