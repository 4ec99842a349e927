import DeclBundle.Shell.Token

/-!
The commands of a script. A script is read line by line: `line?` gives the commands up to the end
of a line, or of the script, and what is left after them. So the commands of a line are known when
what follows is still unread, and may be no script at all.
-/

namespace DeclBundle.Shell.Parser

open Reader

def keywords : List String :=
  ["!", "case", "do", "done", "elif", "else", "esac", "fi", "for", "if", "in", "then", "until",
    "while", "\x7b", "\x7d"]

def endsList : Token → Bool
  | .finish => true
  | .sign text => text = ")" || text = ";;"
  | .keyword text =>
    ["do", "done", "elif", "else", "esac", "fi", "then", "\x7d"].contains text
  | _ => false

def reserved : List String :=
  [".", ":", "break", "continue", "eval", "exec", "exit", "export", "readonly", "return", "set",
    "shift", "times", "trap", "unset"]

inductive Ending
  | line
  | token
  | maybeAtOnce
  deriving DecidableEq

def putBack (t : Token) : Reader Unit :=
  modify ({ · with pushed := some t })

def asKeyword (t : Token) : Token :=
  match t with
  | .word w =>
    match w.plain? with
    | some text => if keywords.contains text then .keyword text else t
    | none => t
  | t => t

abbrev Commands := (closed : Bool) → Reader Command

def rawToken (commands : Commands) : Reader Token := do
  let s ← get
  match s.pushed with
  | some t => do
    set { s with pushed := none }
    return t
  | none => Token.read commands (← supply)

def tokenAfterLines (commands : Commands) : (fuel : Nat) → Reader Token
  | 0 => return .finish
  | fuel + 1 => do
    let t ← rawToken commands
    if t.isNewline then
      Token.awaitedDocuments commands
      tokenAfterLines commands fuel
    else return t

def token (commands : Commands) (skipsLines keyed : Bool) : Reader Token := do
  let t ← if skipsLines then do tokenAfterLines commands ((← supply) + 1) else rawToken commands
  return if keyed then asKeyword t else t

def expect (commands : Commands) (text : String) (skipsLines keyed : Bool) : Reader Unit := do
  let t ← token commands skipsLines keyed
  if !t.is text then unexpectedFor t ("\"" ++ text ++ "\"")

def await (w : Word) (dropsTabs : Bool) : Reader Nat := do
  let s ← get
  let a : Awaited := ⟨s.nextNumber, w.bare, w.isQuoted, dropsTabs⟩
  set { s with awaited := s.awaited ++ [a], nextNumber := s.nextNumber + 1 }
  return s.nextNumber

def redirect (commands : Commands) (stream : Option Nat) (sign : String) : Reader Redirect := do
  match ← token commands false false with
  | .word w =>
    match sign with
    | ">" => return .write (stream.getD 1) .emptied w
    | ">|" => return .write (stream.getD 1) .forced w
    | ">>" => return .write (stream.getD 1) .appended w
    | "<>" => return .write (stream.getD 0) .kept w
    | ">&" => return .copy (stream.getD 1) w
    | "<&" => return .copy (stream.getD 0) w
    | "<<" => return .document (stream.getD 0) (← await w false)
    | "<<-" => return .document (stream.getD 0) (← await w true)
    | _ => return .read (stream.getD 0) w
  | t => unexpected t

def redirects (commands : Commands) : (fuel : Nat) → Reader (List Redirect)
  | 0 => return []
  | fuel + 1 => do
    match ← token commands false true with
    | .redirect stream sign => do
      let first ← redirect commands stream sign
      return first :: (← redirects commands fuel)
    | t => do
      putBack t
      return []

def redirected (commands : Commands) (line : Nat) (body : Command) : Reader Command := do
  match ← redirects commands (← supply), body with
  | [], _ => return body
  | found, .redirected _ (.subshell l inner) _ => return .redirected line (.subshell l inner) found
  | found, _ => return .redirected line body found

def words (commands : Commands) : (fuel : Nat) → Reader (List Word × Token)
  | 0 => return ([], .finish)
  | fuel + 1 => do
    match ← token commands false false with
    | .word w => do
      let (others, t) ← words commands fuel
      return (w :: others, t)
    | t => return ([], t)

def patterns (commands : Commands) : (fuel : Nat) → Token → Reader (List Word)
  | 0, _ => return []
  | fuel + 1, t => do
    let pattern := match t with
      | .word w => w
      | .keyword text => [.text false text.toList]
      | _ => []
    let next ← token commands false false
    if next.is "|" then return pattern :: (← patterns commands fuel (← token commands false false))
    else if next.is ")" then return [pattern]
    else unexpectedFor next "\")\""

def unalias (t : Token) : Reader Bool := do
  match t with
  | .word w =>
    let s ← get
    match w.plain?.bind fun name => (s.aliases.lookup name).map (name, ·) with
    | some (name, text) =>
      if s.current.any (·.name = name) then return false
      let endsInBlank := text.toList.getLast?.any isBlank
      set { s with
        rest := text.toList ++ s.rest
        inserted := ⟨name, s.rest.length, endsInBlank⟩ :: s.current }
      return true
    | none => return false
  | _ => return false

def unaliased (next : Reader Token) : (fuel : Nat) → Reader Token
  | 0 => return .finish
  | fuel + 1 => do
    let t ← next
    if ← unalias t then unaliased next fuel else return t

def aliasSupply : Reader Nat := return (← get).aliases.length + 2

def commandToken (commands : Commands) (skipsLines : Bool) : Reader Token := do
  unaliased (token commands skipsLines true) (← aliasSupply)

def argumentToken (commands : Commands) (hasName : Bool) : Reader Token := do
  let ending := (← get).current.filter (·.endsInBlank)
  let t ← token commands false false
  let s ← get
  if !hasName || ending.any (s.rest.length < ·.left) then
    if ← unalias t then return ← unaliased (token commands false false) (← aliasSupply)
  return t

structure Simple where
  assignments : List (String × Word)
  words : List Word
  redirects : List Redirect

def Simple.addWord (s : Simple) (w : Word) : Simple :=
  match s.words, w.assignment? with
  | [], some a => { s with assignments := s.assignments ++ [a] }
  | words, _ => { s with words := words ++ [w] }

def Simple.addRedirect (s : Simple) (r : Redirect) : Simple :=
  { s with redirects := s.redirects ++ [r] }

def Simple.functionName? (s : Simple) : Option Word :=
  match s with
  | ⟨[], [w], []⟩ => some w
  | _ => none

mutual

def list : (fuel : Nat) → Ending → Command → Reader Command
  | 0, _, _ => complain "too deep"
  | fuel + 1, ending, before => do
    let t ← commandToken (nested fuel) (ending ≠ .line)
    if t.isNewline then
      Token.awaitedDocuments (nested fuel)
      return before
    if t.isFinish then
      Token.awaitedDocuments (nested fuel)
      putBack t
      return before
    putBack t
    if ending = .maybeAtOnce && endsList t then return before
    let first ← andOr fuel
    let after ← token (nested fuel) false false
    let first := if after.is "&" then .background first else first
    let all := match before with
      | .nothing => first
      | before => .seq before first
    let ending := if ending = .token then .maybeAtOnce else ending
    if after.is "&" || after.is ";" then list fuel ending all
    else
      if after.isNewline || after.isFinish then
        putBack after
        list fuel ending all
      else if ending = .line then unexpected (asKeyword after)
      else
        putBack after
        return all

def nested : (fuel : Nat) → (closed : Bool) → Reader Command
  | 0, _ => complain "too deep"
  | fuel + 1, closed => do
    let body ← list fuel .maybeAtOnce .nothing
    if closed then expect (nested fuel) ")" false true
    return body

def andOr : (fuel : Nat) → Reader Command
  | 0 => complain "too deep"
  | fuel + 1 => do
    let first ← pipeline fuel
    chain fuel first

def chain : (fuel : Nat) → Command → Reader Command
  | 0, _ => complain "too deep"
  | fuel + 1, first => do
    let t ← token (nested fuel) false false
    if t.is "&&" || t.is "||" then
      putBack (← commandToken (nested fuel) true)
      let second ← pipeline fuel
      chain fuel (if t.is "&&" then .and first second else .or first second)
    else
      putBack t
      return first

def pipeline : (fuel : Nat) → Reader Command
  | 0 => complain "too deep"
  | fuel + 1 => do
    let t ← token (nested fuel) false true
    if t.is "!" then
      putBack (← commandToken (nested fuel) false)
      return .not (← stages fuel)
    else
      putBack t
      stages fuel

def stages : (fuel : Nat) → Reader Command
  | 0 => complain "too deep"
  | fuel + 1 => do
    let first ← command fuel
    match ← moreStages fuel with
    | [] => return first
    | others => return .pipe (first :: others)

def moreStages : (fuel : Nat) → Reader (List Command)
  | 0 => complain "too deep"
  | fuel + 1 => do
    let t ← token (nested fuel) false false
    if t.is "|" then
      putBack (← commandToken (nested fuel) true)
      let first ← command fuel
      return first :: (← moreStages fuel)
    else
      putBack t
      return []

def command : (fuel : Nat) → Reader Command
  | 0 => complain "too deep"
  | fuel + 1 => do
    let t ← token (nested fuel) false false
    let line := (← get).line
    match t with
    | .keyword "if" => do redirected (nested fuel) line (← conditional fuel)
    | .keyword "while" => do redirected (nested fuel) line (← loop fuel false)
    | .keyword "until" => do redirected (nested fuel) line (← loop fuel true)
    | .keyword "for" => do redirected (nested fuel) line (← each fuel line)
    | .keyword "case" => do redirected (nested fuel) line (← choice fuel line)
    | .keyword "\x7b" => do
      let body ← list fuel .token .nothing
      expect (nested fuel) "\x7d" false true
      redirected (nested fuel) line body
    | .sign "(" => do
      let body ← list fuel .token .nothing
      expect (nested fuel) ")" false true
      redirected (nested fuel) line (.subshell line body)
    | .word _ | .redirect _ _ => do
      putBack t
      simple fuel line ⟨[], [], []⟩
    | t => unexpected t

def conditional : (fuel : Nat) → Reader Command
  | 0 => complain "too deep"
  | fuel + 1 => do
    let condition ← list fuel .token .nothing
    expect (nested fuel) "then" false true
    let yes ← list fuel .token .nothing
    let t ← token (nested fuel) false true
    if t.is "elif" then return .branch condition yes (← conditional fuel)
    else if t.is "else" then
      let no ← list fuel .token .nothing
      expect (nested fuel) "fi" false true
      return .branch condition yes no
    else if t.is "fi" then return .branch condition yes .nothing
    else unexpectedFor t "\"fi\""

def loop : (fuel : Nat) → (negated : Bool) → Reader Command
  | 0, _ => complain "too deep"
  | fuel + 1, negated => do
    let condition ← list fuel .token .nothing
    expect (nested fuel) "do" false true
    let body ← list fuel .token .nothing
    expect (nested fuel) "done" false true
    return .loop negated condition body

def each : (fuel : Nat) → (line : Nat) → Reader Command
  | 0, _ => complain "too deep"
  | fuel + 1, line => do
    let name ← match ← token (nested fuel) false false with
      | .word [.text false name] =>
        if isName name then pure (String.ofList name) else complain "Bad for loop variable"
      | _ => complain "Bad for loop variable"
    let t ← token (nested fuel) true true
    let items ←
      if t.is "in" then do
        let (items, after) ← words (nested fuel) (← supply)
        if !after.isNewline && !after.is ";" then unexpected after
        if after.isNewline then Token.awaitedDocuments (nested fuel)
        pure (some items)
      else do
        if !t.is ";" then putBack t
        pure none
    expect (nested fuel) "do" true true
    let body ← list fuel .token .nothing
    expect (nested fuel) "done" false true
    return .each line name items body

def choice : (fuel : Nat) → (line : Nat) → Reader Command
  | 0, _ => complain "too deep"
  | fuel + 1, line => do
    match ← token (nested fuel) false false with
    | .word subject => do
      expect (nested fuel) "in" true true
      return .choice line subject (← cases fuel)
    | t => unexpectedFor t "word"

def cases : (fuel : Nat) → Reader (List (List Word × Command))
  | 0 => complain "too deep"
  | fuel + 1 => do
    let t ← token (nested fuel) true true
    if t.is "esac" then return []
    let t ← if t.is "(" then token (nested fuel) false false else pure t
    let found ← patterns (nested fuel) (← supply) t
    let body ← list fuel .maybeAtOnce .nothing
    let after ← token (nested fuel) true true
    if after.is "esac" then return [(found, body)]
    else if after.is ";;" then return (found, body) :: (← cases fuel)
    else unexpectedFor after "\";;\""

def simple : (fuel : Nat) → (line : Nat) → Simple → Reader Command
  | 0, _, _ => complain "too deep"
  | fuel + 1, line, s => do
    match ← argumentToken (nested fuel) (!s.words.isEmpty) with
    | .word w => simple fuel line (s.addWord w)
    | .redirect stream sign => do
      simple fuel line (s.addRedirect (← redirect (nested fuel) stream sign))
    | t =>
      match t.is "(", s.functionName? with
      | true, some w => do
        expect (nested fuel) ")" false false
        match w.plain? with
        | some name => do
          if !isName name.toList || reserved.contains name then complain "Bad function name"
          putBack (← commandToken (nested fuel) true)
          return .define name (← command fuel)
        | none => complain "Bad function name"
      | _, _ => do
        putBack t
        return .simple line s.assignments s.words s.redirects

end

def line? : Reader (Option Command) := do
  let inserted := ((← get).aliases.map fun a => a.2.length).foldl (· + ·) 1
  let fuel := 20 * (← supply) * inserted + 20
  let t ← commandToken (nested fuel) false
  if t.isFinish then return none
  else
    putBack t
    return some (← list fuel .line .nothing)

end DeclBundle.Shell.Parser
