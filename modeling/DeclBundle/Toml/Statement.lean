import DeclBundle.Toml.Node
import DeclBundle.Toml.Quoted
import DeclBundle.Toml.Scalar

/-!
The statements of a TOML document: keys with their values, and headers. A reader gives what it
read together with the rest of the text, or nothing where the text is no document. `whole` is the
size of the whole document, by which the rest of a text tells where it stands.
-/

namespace DeclBundle.Toml

inductive Statement
  | assign (first : Key) (others : List Key) (value : Node)
  | table (first : Key) (others : List Key) (span : Span)
  | tables (first : Key) (others : List Key) (span : Span)

namespace Statement

def skipBlanks (text : List Char) : List Char :=
  text.dropWhile isBlank

def skipLines (commented : Bool) : List Char → List Char
  | '\n' :: r => skipLines false r
  | '\r' :: '\n' :: r => skipLines false r
  | c :: r =>
    if commented then if isPlain c then skipLines true r else c :: r
    else if isBlank c then skipLines false r
    else if c = '#' then skipLines true r
    else c :: r
  | [] => []

def endLine (text : List Char) : Option (List Char) :=
  let text := skipBlanks text
  let text := if text.head? = some '#' then text.dropWhile isPlain else text
  if text.isEmpty then some []
  else if startsLine text then some (Quoted.dropLineEnd text)
  else none

def isBare (c : Char) : Bool :=
  c.isAlphanum || c = '-' || c = '_'

def keyText (text : List Char) : Quoted.Read :=
  match text.span isBare with
  | ([], text) => Quoted.line? text
  | (bare, rest) => some (bare, rest)

def key (whole : Nat) (text : List Char) : Option (Key × List Char) := do
  let (content, rest) ← keyText text
  return (⟨String.ofList content, .between whole text rest⟩, rest)

def moreKeys (whole : Nat) : Nat → List Char → Option (List Key × List Char)
  | 0, _ => none
  | fuel + 1, text =>
    match skipBlanks text with
    | '.' :: rest => do
      let (first, rest) ← key whole (skipBlanks rest)
      let (others, rest) ← moreKeys whole fuel rest
      return (first :: others, rest)
    | _ => some ([], text)

def maxDepth : Nat := 80

def keys (whole : Nat) (text : List Char) : Option ((Key × List Key) × List Char) := do
  let (first, rest) ← key whole text
  let (others, rest) ← moreKeys whole (rest.length + 1) rest
  guard (others.length < maxDepth)
  return ((first, others), rest)

def keysEqual (whole : Nat) (skip : List Char → List Char) (text : List Char) :
    Option ((Key × List Key) × List Char) := do
  let (path, rest) ← keys whole text
  match skip rest with
  | '=' :: rest => some (path, skip rest)
  | _ => none

mutual

def value (whole depth : Nat) : Nat → List Char → Option (Node × List Char)
  | 0, _ => none
  | fuel + 1, text =>
    match text with
    | '"' :: _ | '\'' :: _ => do
      let (content, rest) ← Quoted.read? text
      return (.text (.between whole text rest) (String.ofList content), rest)
    | '[' :: rest => do
      guard (depth ≠ 0)
      let (items, rest) ← items whole (depth - 1) fuel (skipLines false rest)
      return (.array (.between whole text rest) items, rest)
    | '\x7b' :: rest => do
      guard (depth ≠ 0)
      let (entries, rest) ← entries whole (depth - 1) fuel (skipLines false rest) []
      return (.table (.between whole text rest) .inline entries, rest)
    | _ => do
      let (valued, rest) ← Scalar.read? text
      return (.scalar (.between whole text rest) valued, rest)

def items (whole depth : Nat) : Nat → List Char → Option (List Node × List Char)
  | 0, _ => none
  | _ + 1, ']' :: rest => some ([], rest)
  | fuel + 1, text => do
    let (item, rest) ← value whole depth fuel text
    match skipLines false rest with
    | ',' :: rest => do
      let (others, rest) ← items whole depth fuel (skipLines false rest)
      return (item :: others, rest)
    | ']' :: rest => some ([item], rest)
    | _ => none

def entries (whole depth : Nat) : Nat → List Char → Entries → Option (Entries × List Char)
  | 0, _, _ => none
  | _ + 1, '\x7d' :: rest, found => some (found, rest)
  | fuel + 1, text, found => do
    let ((first, others), rest) ← keysEqual whole (skipLines false) text
    let (node, rest) ← value whole depth fuel rest
    let found ← found.assign node first others
    match skipLines false rest with
    | ',' :: rest => entries whole depth fuel (skipLines false rest) found
    | '\x7d' :: rest => some (found, rest)
    | _ => none

end

def header (whole : Nat) (text : List Char) : Option ((Key × List Key) × List Char) := do
  let (path, rest) ← keys whole (skipBlanks text)
  return (path, skipBlanks rest)

def read? (whole : Nat) (text : List Char) : Option (Statement × List Char) :=
  match text with
  | '[' :: '[' :: rest => do
    match ← header whole rest with
    | ((first, others), ']' :: ']' :: rest) =>
      return (.tables first others (.between whole text rest), rest)
    | _ => none
  | '[' :: rest => do
    match ← header whole rest with
    | ((first, others), ']' :: rest) =>
      return (.table first others (.between whole text rest), rest)
    | _ => none
  | text => do
    let ((first, others), rest) ← keysEqual whole skipBlanks text
    let (node, rest) ← value whole maxDepth (rest.length + 1) rest
    return (.assign first others node, rest)

def readAll? (whole : Nat) : Nat → List Char → Option (List Statement)
  | 0, _ => none
  | fuel + 1, text =>
    match skipLines false text with
    | [] => some []
    | text => do
      let (statement, rest) ← read? whole text
      let rest ← endLine rest
      return statement :: (← readAll? whole fuel rest)

end Statement

end DeclBundle.Toml
