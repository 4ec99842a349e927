import DeclBundle.Shell.Source

namespace DeclBundle.Shell

def isBlank (c : Char) : Bool := c = ' ' || c = '\t'

def endsWord (c : Char) : Bool :=
  isBlank c || c = '\n' || c = ';' || c = '&' || c = '|' || c = '(' || c = ')' || c = '<' || c = '>'

inductive Closing
  | blank
  | quote
  | brace
  | parens (opened : Nat)
  | finish

structure Context where
  quoted : Bool
  document : Bool
  closing : Closing

namespace Context

def word : Context := ⟨false, false, .blank⟩
def doubleQuotes : Context := ⟨true, false, .quote⟩
def wholeDocument : Context := ⟨true, true, .finish⟩
def expression : Context := ⟨true, false, .parens 0⟩

def braces (outer : Context) (pattern : Bool) : Context :=
  ⟨outer.quoted && !pattern, outer.document, .brace⟩

def isBrace (x : Context) : Bool :=
  match x.closing with
  | .brace => true
  | _ => false

def finish (x : Context) : Reader Word :=
  match x.closing with
  | .blank | .finish => return []
  | .parens _ => Reader.complain "Missing '))'"
  | .quote => Reader.complain "Unterminated quoted string"
  | .brace =>
    if x.quoted && !x.document then Reader.complain "Unterminated quoted string"
    else Reader.complain "Missing '\x7d'"

def escapes (x : Context) (c : Char) : Bool :=
  c = '\\' || c = '\x60' || c = '$' || (c = '"' && !(x.document && !x.isBrace)) ||
    (c = '\x7d' && x.isBrace)

def hasQuotes (x : Context) : Bool :=
  match x.closing with
  | .parens _ => false
  | .finish => false
  | _ => true

inductive Turn
  | ends (used : Bool)
  | changes (next : Context)
  | mayEnd
  | stays

def turn (x : Context) (c : Char) : Turn :=
  match x.closing, c with
  | .blank, c => if endsWord c then .ends false else .stays
  | .quote, '"' => .ends true
  | .brace, '\x7d' => .ends true
  | .parens n, '(' => .changes { x with closing := .parens (n + 1) }
  | .parens (n + 1), ')' => .changes { x with closing := .parens n }
  | .parens 0, ')' => .mayEnd
  | _, _ => .stays

end Context

namespace Quoting

open Reader

def isSpecial (c : Char) : Bool :=
  c = '!' || c = '$' || c = '*' || c = '@' || c = '?' || c = '-' || c = '#' || c.isDigit

def single : (fuel : Nat) → Reader (List Char)
  | 0 => complain "Unterminated quoted string"
  | fuel + 1 => do
    match ← raw? with
    | none => complain "Unterminated quoted string"
    | some '\'' => return []
    | some c => return c :: (← single fuel)

def backQuoted (quoted : Bool) : (fuel : Nat) → Reader (List Char)
  | 0 => complain "EOF in backquote substitution"
  | fuel + 1 => do
    match ← next? with
    | none => complain "EOF in backquote substitution"
    | some '\x60' => return []
    | some '\\' =>
      match ← raw? with
      | none => complain "EOF in backquote substitution"
      | some c =>
        let rest ← backQuoted quoted fuel
        if c = '\\' || c = '\x60' || c = '$' || (quoted && c = '"') then return c :: rest
        else return '\\' :: c :: rest
    | some c => return c :: (← backQuoted quoted fuel)

def within (text : List Char) (commands : Reader Command) : Reader Command := do
  let s ← get
  set { Source.ofText text s.nextNumber with documents := s.documents }
  let body ← commands
  let inner ← get
  set { s with documents := inner.documents, nextNumber := inner.nextNumber }
  return body

def bracedName : Reader (Option String × Bool) := do
  let fuel ← supply
  match ← peek? with
  | none => return (none, false)
  | some c =>
    if isNameStart c then return (some (String.ofList (← takeWhile isNameChar fuel)), false)
    else if c.isDigit then return (some (String.ofList (← takeWhile Char.isDigit fuel)), false)
    else if c = '#' then do
      let _ ← next?
      match ← peek? with
      | some d =>
        if isNameChar d then
          let test := if d.isDigit then Char.isDigit else isNameChar
          return (some (String.ofList (← takeWhile test fuel)), true)
        else if d = '\x7d' then return (some "#", false)
        else do
          let s ← get
          let _ ← next?
          if isSpecial d && (← peek?) = some '\x7d' then return (some (String.ofList [d]), true)
          else
            set s
            return (some "#", false)
      | none => return (some "#", false)
    else if isSpecial c then do
      let _ ← next?
      return (some (String.ofList [c]), false)
    else return (none, false)

def fallback? : Char → Option Fallback
  | '-' => some .use
  | '=' => some .assign
  | '?' => some .refuse
  | '+' => some .instead
  | _ => none

mutual

def parts (commands : (closed : Bool) → Reader Command) : (fuel : Nat) → Context → Reader Word
  | 0, _ => complain "Unterminated quoted string"
  | fuel + 1, x => do
    match ← peek? with
    | none => x.finish
    | some c =>
      match x.turn c with
      | .ends used => do
        if used then let _ ← next?
        return []
      | .changes x => do
        let _ ← next?
        return Word.push (.text true [c]) (← parts commands fuel x)
      | .mayEnd => do
        let _ ← next?
        if ← skip? ')' then return []
        else return Word.push (.text true [c]) (← parts commands fuel x)
      | .stays => do
        let _ ← next?
        let found ← piece commands fuel x c
        return found.foldr Word.push (← parts commands fuel x)

def piece (commands : (closed : Bool) → Reader Command) : (fuel : Nat) → Context → Char →
    Reader Word
  | 0, _, _ => complain "Unterminated quoted string"
  | fuel + 1, x, c => do
    match c with
    | '\\' =>
      match ← raw? with
      | none => return [.text true ['\\']]
      | some d => return [.text true (if x.quoted && !x.escapes d then ['\\', d] else [d])]
    | '\'' =>
      if x.quoted then return [.text true [c]] else return [.text true (← single (← supply))]
    | '"' =>
      if x.hasQuotes then return .text true [] :: (← parts commands fuel .doubleQuotes)
      else return [.text true [c]]
    | '$' => return [← dollar commands fuel x]
    | '\x60' =>
      let text ← backQuoted x.quoted (← supply)
      return [.output x.quoted (← within text (commands false))]
    | c => return [.text x.quoted [c]]

def dollar (commands : (closed : Bool) → Reader Command) : (fuel : Nat) → Context → Reader Part
  | 0, _ => complain "Unterminated quoted string"
  | fuel + 1, x => do
    match ← peek? with
    | none => return .text x.quoted ['$']
    | some '(' => do
      let _ ← next?
      if ← skip? '(' then return .sum x.quoted (← parts commands fuel .expression)
      else
        let awaited := (← get).awaited
        modify ({ · with awaited := [] })
        let body ← commands true
        modify ({ · with awaited := awaited })
        return .output x.quoted body
    | some '\x7b' => do
      let _ ← next?
      braced commands fuel x
    | some c =>
      if isNameStart c then
        return .parameter x.quoted (String.ofList (← takeWhile isNameChar (← supply))) .value
      else if isSpecial c then do
        let _ ← next?
        return .parameter x.quoted (String.ofList [c]) .value
      else return .text x.quoted ['$']

def braced (commands : (closed : Bool) → Reader Command) : (fuel : Nat) → Context → Reader Part
  | 0, _ => complain "Missing '\x7d'"
  | fuel + 1, x => do
    let inner (pattern : Bool) : Reader Word := parts commands fuel (x.braces pattern)
    match ← bracedName with
    | (none, _) => do
      let _ ← inner false
      return .parameter x.quoted "" .unknown
    | (some name, true) => do
      let _ ← inner false
      return .parameter x.quoted name .size
    | (some name, false) => do
      let evenEmpty ← skip? ':'
      match ← peek? with
      | some '\x7d' => do
        let _ ← next?
        if evenEmpty then
          let _ ← inner false
        return .parameter x.quoted name .value
      | some c =>
        match fallback? c with
        | some kind => do
          let _ ← next?
          return .parameter x.quoted name (.otherwise kind evenEmpty (← inner false))
        | none =>
          if !evenEmpty && (c = '%' || c = '#') then do
            let _ ← next?
            let longest ← skip? c
            return .parameter x.quoted name (.trimmed (c = '%') longest (← inner true))
          else do
            let _ ← next?
            let _ ← inner false
            return .parameter x.quoted name .unknown
      | none => do
        let _ ← inner false
        return .parameter x.quoted name .unknown

end

end Quoting

end DeclBundle.Shell
