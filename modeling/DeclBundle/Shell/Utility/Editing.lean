import DeclBundle.Shell.Regex
import DeclBundle.Shell.Utility.Texts

namespace DeclBundle.Shell.Utility.Editing

open Work

inductive Address
  | line (n : Nat)
  | last
  | every (first gap : Nat)
  | matching (r : Regex) (ignoresCase : Bool)
  | later (n : Nat)

structure Guard where
  first : Option Address
  second : Option Address
  negated : Bool

inductive Substitute
  | text (chars : List Char)
  | group (n : Nat)

inductive Action
  | block (finish : Nat)
  | close
  | substitute (r : Regex) (ignoresCase : Bool) (parts : List Substitute) (all prints : Bool)
      (number : Nat)
  | replaceChars (pairs : List (Char × Char))
  | print
  | printFirst
  | delete
  | deleteFirst
  | quit (prints : Bool) (status : Nat)
  | number
  | append (text : List Char)
  | insert (text : List Char)
  | change (text : List Char)
  | next
  | joinNext
  | hold (appends : Bool)
  | recall (appends : Bool)
  | swap
  | label (name : List Char)
  | jump (name : List Char) (onlyAfterSubstitution : Bool)

structure Step where
  guard : Guard
  action : Action

structure Fault where
  left : Nat
  text : String

abbrev Reading := StateT (List Char) (Except Fault)

def refuse {α : Type} (text : String) : Reading α := do
  throw ⟨(← get).length, text⟩

def next? : Reading (Option Char) := do
  match ← get with
  | [] => return none
  | c :: rest =>
    set rest
    return some c

def skipWhile (test : Char → Bool) : Reading (List Char) := do
  let text ← get
  let found := text.takeWhile test
  set (text.drop found.length)
  return found

def skip? (c : Char) : Reading Bool := do
  match ← get with
  | d :: rest =>
    if c = d then
      set rest
      return true
    else return false
  | [] => return false

def upTo (delimiter : Char) (isPattern : Bool) : (fuel : Nat) → (inBrackets : Bool) →
    Reading (Option (List Char))
  | 0, _ => return none
  | fuel + 1, inBrackets => do
    match ← next? with
    | none => return none
    | some '\\' => do
      match ← next? with
      | none => return none
      | some d => do
        let rest ← upTo delimiter isPattern fuel inBrackets
        let kept := if d = delimiter then [d] else ['\\', d]
        return rest.map (kept ++ ·)
    | some c =>
      if c = delimiter && !inBrackets then return some []
      else if c = '\n' && isPattern && delimiter ≠ '\n' then return none
      else do
        let inBrackets := isPattern && ((c = '[') || (inBrackets && c ≠ ']'))
        let rest ← upTo delimiter isPattern fuel inBrackets
        return rest.map (c :: ·)

def readRegex (extended : Bool) (text : List Char) : Reading Regex :=
  match Regex.read? extended text with
  | .ok r => return r
  | .error message => refuse message

def readNumber : Reading Nat := do return numberOf 10 (← skipWhile Char.isDigit)

def readAddress (extended : Bool) : Reading (Option Address) := do
  let text ← get
  match text with
  | [] => return none
  | c :: rest =>
    if c.isDigit then
      let n ← readNumber
      if ← skip? '~' then return some (.every n (← readNumber))
      else return some (.line n)
    else if c = '$' then
      set rest
      return some .last
    else if c = '/' || c = '\\' then
      set rest
      let delimiter ← if c = '\\' then do pure ((← next?).getD '/') else pure '/'
      match ← upTo delimiter true (text.length + 1) false with
      | none => refuse "unterminated address regex"
      | some body => do
        let r ← readRegex extended body
        return some (.matching r (← skip? 'I'))
    else return none

def isBlank (c : Char) : Bool := c = ' ' || c = '\t'

def readGuard (extended : Bool) : Reading Guard := do
  let first ← readAddress extended
  let _ ← skipWhile isBlank
  let second ← if first.isSome && (← skip? ',') then do
      let _ ← skipWhile isBlank
      if ← skip? '+' then pure (some (Address.later (← readNumber)))
      else
        match ← readAddress extended with
        | some a => pure (some a)
        | none => refuse "unexpected \x60,'"
    else pure none
  let _ ← skipWhile isBlank
  let negated ← skip? '!'
  let _ ← skipWhile isBlank
  return ⟨first, second, negated⟩

def parts : (fuel : Nat) → List Char → List Substitute
  | 0, _ => []
  | _ + 1, [] => []
  | fuel + 1, '&' :: rest => .group 0 :: parts fuel rest
  | fuel + 1, '\\' :: c :: rest =>
    if c.isDigit then .group (c.toNat - '0'.toNat) :: parts fuel rest
    else .text [if c = 'n' then '\n' else if c = 't' then '\t' else c] :: parts fuel rest
  | fuel + 1, c :: rest => .text [c] :: parts fuel rest

structure SubstituteFlags where
  all : Bool
  prints : Bool
  ignoresCase : Bool
  number : Nat

def readFlags : (fuel : Nat) → SubstituteFlags → Reading SubstituteFlags
  | 0, flags => return flags
  | fuel + 1, flags => do
    match ← get with
    | [] => return flags
    | c :: rest =>
      if c = 'g' then
        set rest
        readFlags fuel { flags with all := true }
      else if c = 'p' then
        set rest
        readFlags fuel { flags with prints := true }
      else if c = 'i' || c = 'I' then
        set rest
        readFlags fuel { flags with ignoresCase := true }
      else if c.isDigit then do
        let n ← readNumber
        readFlags fuel { flags with number := n }
      else if isBlank c || c = ';' || c = '\n' || c = '\x7d' || c = '#' then return flags
      else
        set rest
        refuse "unknown option to \x60s'"

def readText : (fuel : Nat) → Reading (List Char)
  | 0 => return []
  | fuel + 1 => do
    match ← next? with
    | none => return []
    | some '\n' => return []
    | some '\\' => do
      match ← next? with
      | none => return []
      | some c => return c :: (← readText fuel)
    | some c => return c :: (← readText fuel)

def textArgument : Reading (List Char) := do
  let _ ← skipWhile isBlank
  if ← skip? '\\' then
    let _ ← skipWhile isBlank
    let _ ← skip? '\n'
  let text ← readText ((← get).length + 1)
  if text.isEmpty then refuse "expected \\ after \x60a', \x60c' or \x60i'"
  return text

def unescapePairs : (fuel : Nat) → List Char → List Char
  | 0, _ => []
  | _ + 1, [] => []
  | fuel + 1, '\\' :: 'n' :: rest => '\n' :: unescapePairs fuel rest
  | fuel + 1, '\\' :: '\\' :: rest => '\\' :: unescapePairs fuel rest
  | fuel + 1, c :: rest => c :: unescapePairs fuel rest

def readAction (extended : Bool) (letter : Char) : Reading Action := do
  let fuel := (← get).length + 2
  match letter with
  | '\x7b' => return .block 0
  | '\x7d' => return .close
  | 's' => do
    let delimiter := (← next?).getD '/'
    match ← upTo delimiter true fuel false with
    | none => refuse "unterminated \x60s' command"
    | some pattern => do
      match ← upTo delimiter false fuel false with
      | none => refuse "unterminated \x60s' command"
      | some replacement => do
        let flags ← readFlags fuel ⟨false, false, false, 1⟩
        let r ← readRegex extended pattern
        return .substitute r flags.ignoresCase (parts fuel replacement) flags.all flags.prints
          flags.number
  | 'y' => do
    let delimiter := (← next?).getD '/'
    match ← upTo delimiter false fuel false, ← upTo delimiter false fuel false with
    | some a, some b => do
      let a := unescapePairs fuel a
      let b := unescapePairs fuel b
      if a.length ≠ b.length then refuse "strings for \x60y' command are different lengths"
      return .replaceChars (a.zip b)
    | _, _ => refuse "unterminated \x60y' command"
  | 'p' => return .print
  | 'P' => return .printFirst
  | 'd' => return .delete
  | 'D' => return .deleteFirst
  | 'q' => do
    let _ ← skipWhile isBlank
    return .quit true (← readNumber)
  | 'Q' => do
    let _ ← skipWhile isBlank
    return .quit false (← readNumber)
  | '=' => return .number
  | 'a' => return .append (← textArgument)
  | 'i' => return .insert (← textArgument)
  | 'c' => return .change (← textArgument)
  | 'n' => return .next
  | 'N' => return .joinNext
  | 'h' => return .hold false
  | 'H' => return .hold true
  | 'g' => return .recall false
  | 'G' => return .recall true
  | 'x' => return .swap
  | ':' => do
    let _ ← skipWhile isBlank
    return .label (← skipWhile fun c => !isBlank c && c ≠ ';' && c ≠ '\n')
  | 'b' | 't' => do
    let _ ← skipWhile isBlank
    let name ← skipWhile fun c => !isBlank c && c ≠ ';' && c ≠ '\n' && c ≠ '\x7d'
    return .jump name (letter = 't')
  | c => refuse ("unknown command: \x60" ++ String.ofList [c] ++ "'")

def takesRest : Action → Bool
  | .append _ | .insert _ | .change _ | .block _ => true
  | _ => false

def readSteps (extended : Bool) : (fuel : Nat) → Reading (List Step)
  | 0 => return []
  | fuel + 1 => do
    let _ ← skipWhile fun c => isBlank c || c = '\n' || c = ';'
    if ← skip? '#' then
      let _ ← skipWhile (· ≠ '\n')
      readSteps extended fuel
    else if (← get).isEmpty then return []
    else
      let guard ← readGuard extended
      match ← next? with
      | none => refuse "missing command"
      | some letter => do
        let action ← readAction extended letter
        if !takesRest action then
          let _ ← skipWhile isBlank
          match ← get with
          | c :: rest =>
            if c ≠ ';' && c ≠ '\n' && c ≠ '\x7d' && c ≠ '#' then
              set rest
              refuse "extra characters after command"
          | [] => pure ()
        return ⟨guard, action⟩ :: (← readSteps extended fuel)

def closeBlocks : (number : Nat) → List Step → Option (List Step × List Nat)
  | _, [] => some ([], [])
  | n, s :: rest => do
    let (steps, ends) ← closeBlocks (n + 1) rest
    match s.action, ends with
    | .close, ends => return (s :: steps, (n + 1) :: ends)
    | .block _, finish :: ends => return ({ s with action := .block finish } :: steps, ends)
    | .block _, [] => none
    | _, ends => return (s :: steps, ends)

structure State where
  unread : List (Bytes × Bool)
  line : Nat
  space : List Char
  ended : Bool
  held : List Char
  queue : List (List Char)
  out : List Bytes
  substituted : Bool
  ranges : List (Nat × Option Nat)
  status : Option Nat

namespace State

def write (s : State) (text : List Char) (ended : Bool) : State :=
  { s with out := (narrow text ++ if ended then [lineFeed] else []) :: s.out }

def shown (s : State) : State := s.write s.space s.ended

def flush (s : State) : State :=
  s.queue.reverse.foldl (fun s text => s.write text true) { s with queue := [] }

def advance? (s : State) : Option State :=
  match s.unread with
  | [] => none
  | (bytes, ended) :: unread =>
    some { s with unread := unread, line := s.line + 1, space := widen bytes, ended := ended }

end State

def Address.meets (a : Address) (s : State) : Bool :=
  match a with
  | .line n => s.line = n
  | .last => s.unread.isEmpty
  | .every first gap =>
    if gap = 0 then s.line = first else s.line ≥ first && (s.line - first) % gap = 0
  | .matching r ignoresCase => (r.find? ignoresCase none s.space).isSome
  | .later _ => false

def Guard.meets (g : Guard) (number : Nat) (s : State) : Bool × List (Nat × Option Nat) :=
  let others := s.ranges.filter (·.1 ≠ number)
  let (holds, left) := match g.first, g.second with
    | none, _ => (true, s.ranges)
    | some a, none => (a.meets s, s.ranges)
    | some a, some b =>
      match s.ranges.lookup number with
      | some (some last) => (s.line ≤ last || a.meets s, if s.line < last then s.ranges else others)
      | some none => (true, if b.meets s then others else s.ranges)
      | none =>
        if a.meets s then
          match b with
          | .line n => (true, if n > s.line then (number, some n) :: others else others)
          | .later n => (true, if n > 0 then (number, some (s.line + n)) :: others else others)
          | .last => (true, if s.unread.isEmpty then others else (number, none) :: others)
          | _ => (true, (number, none) :: others)
        else (false, s.ranges)
  (holds ≠ g.negated, left)

def filled (parts : List Substitute) (f : Regex.Found) : List Char :=
  parts.flatMap fun
    | .text chars => chars
    | .group n => if n = 0 then f.text else (f.groups.lookup n).getD []

def replaced (r : Regex) (ignoresCase : Bool) (parts : List Substitute) (all : Bool) :
    (fuel number : Nat) → Option Char → List Char → List Char × Bool
  | 0, _, _, text => (text, false)
  | fuel + 1, number, before, text =>
    match r.find? ignoresCase before text with
    | none => (text, false)
    | some f =>
      let hit := number ≤ 1
      let shown := if hit then filled parts f else f.text
      if hit && !all then (f.skipped ++ shown ++ f.after.rest, true)
      else
        match f.text, f.after.rest with
        | [], c :: rest =>
          let (others, changed) := replaced r ignoresCase parts all fuel (number - 1) (some c) rest
          (f.skipped ++ shown ++ c :: others, changed || hit)
        | [], [] => (f.skipped ++ shown, hit)
        | _, rest =>
          let (others, changed) :=
            replaced r ignoresCase parts all fuel (number - 1) f.after.before rest
          (f.skipped ++ shown ++ others, changed || hit)

inductive Turn
  | at (number : Nat)
  | lineGone
  | again

def firstLine (text : List Char) : List Char := text.takeWhile (· ≠ '\n')

def labelAt (steps : List Step) (name : List Char) : Nat :=
  if name.isEmpty then steps.length
  else (steps.findIdx? fun s => match s.action with
    | .label n => n = name
    | _ => false).getD steps.length

def act (quiet : Bool) (steps : List Step) (number : Nat) (a : Action) (s : State) : State × Turn :=
  let onward := Turn.at (number + 1)
  match a with
  | .block _ | .close | .label _ => (s, onward)
  | .substitute r ignoresCase parts all prints first =>
    let (text, changed) :=
      replaced r ignoresCase parts all (s.space.length + 2) first none s.space
    let s := { s with space := text, substituted := s.substituted || changed }
    (if changed && prints then s.shown else s, onward)
  | .replaceChars pairs =>
    ({ s with space := s.space.map fun c => (pairs.lookup c).getD c }, onward)
  | .print => (s.write s.space true, onward)
  | .printFirst => (s.write (firstLine s.space) true, onward)
  | .delete => (s, .lineGone)
  | .deleteFirst =>
    if s.space.contains '\n' then
      ({ s with space := s.space.drop ((firstLine s.space).length + 1) }, .again)
    else (s, .lineGone)
  | .quit prints status =>
    (({ (if prints && !quiet then s.shown else s) with status := some status }), .lineGone)
  | .number => (s.write (toString s.line).toList true, onward)
  | .append text => ({ s with queue := text :: s.queue }, onward)
  | .insert text => (s.write text true, onward)
  | .change text =>
    let isLast := !s.ranges.any (·.1 = number)
    (if isLast then s.write text true else s, .lineGone)
  | .next =>
    let after := if quiet then s else s.shown
    match after.flush.advance? with
    | some s => (s, onward)
    | none => ({ (if quiet then s else s.shown) with status := some 0 }, .lineGone)
  | .joinNext =>
    let before := s.space
    match s.flush.advance? with
    | some s => ({ s with space := before ++ '\n' :: s.space }, onward)
    | none => ({ (if quiet then s else s.shown) with status := some 0 }, .lineGone)
  | .hold appends =>
    ({ s with held := if appends then s.held ++ '\n' :: s.space else s.space }, onward)
  | .recall appends =>
    ({ s with space := if appends then s.space ++ '\n' :: s.held else s.held }, onward)
  | .swap => ({ s with space := s.held, held := s.space }, onward)
  | .jump name onlyAfter =>
    if onlyAfter && !s.substituted then (s, onward)
    else ({ s with substituted := s.substituted && !onlyAfter }, .at (labelAt steps name))

def cycle (quiet : Bool) (steps : List Step) : (fuel number : Nat) → State → State
  | 0, _, s => s
  | fuel + 1, number, s =>
    match steps[number]? with
    | none => (if quiet then s else s.shown).flush
    | some step =>
      let (holds, left) := step.guard.meets number s
      let s := { s with ranges := left }
      if !holds then
        match step.action with
        | .block finish => cycle quiet steps fuel finish s
        | _ => cycle quiet steps fuel (number + 1) s
      else
        match act quiet steps number step.action s with
        | (s, .at number) => cycle quiet steps fuel number s
        | (s, .lineGone) => s.flush
        | (s, .again) => cycle quiet steps fuel 0 s.flush

def cycleFuel : Nat := 20000

def edit (quiet : Bool) (steps : List Step) : (lines : Nat) → State → State
  | 0, s => s
  | lines + 1, s =>
    if s.status.isSome then s
    else
      match s.advance? with
      | none => s
      | some s =>
        edit quiet steps lines (cycle quiet steps cycleFuel 0 { s with substituted := false })

def markedLines (bytes : Bytes) : List (Bytes × Bool) :=
  let lines := linesOf bytes
  if endsInLineFeed bytes then lines.map (·, true)
  else lines.dropLast.map (·, true) ++ lines.getLast?.toList.map (·, false)

def joined (pieces : List (List (Bytes × Bool))) : List (Bytes × Bool) :=
  let all := pieces.flatten
  all.dropLast.map (fun p => (p.1, true)) ++ all.getLast?.toList

def editAll (quiet : Bool) (steps : List Step) (lines : List (Bytes × Bool)) : State :=
  edit quiet steps (lines.length + 1) ⟨lines, 0, [], true, [], [], [], false, [], none⟩

def readScript (extended : Bool) (text : String) : Work (List Step) := do
  let chars := widen (bytesOf text)
  let faulty (left : Nat) (message : String) : Work (List Step) :=
    fail 1 ("-e expression #1, char " ++ toString (chars.length - left) ++ ": " ++ message)
  match (readSteps extended (chars.length + 1)).run chars with
  | .error fault => faulty fault.left fault.text
  | .ok (steps, _) =>
    match closeBlocks 0 steps with
    | some (steps, []) => return steps
    | some (_, _) => faulty 0 "unexpected \x60\x7d'"
    | none => faulty chars.length "unmatched \x60\x7b'"

def splitInPlace (args : List String) : List String :=
  args.map fun arg =>
    let isSuffixed := "-i".toList.isPrefixOf arg.toList &&
      (arg.toList.drop 2).any fun c => !"nErsu".toList.contains c
    if isSuffixed then "-i" else arg

def sed : Utility := fun args => do
  let (given, others) ← options "nEre:f:isuz" [("quiet", 'n'), ("silent", 'n'),
    ("expression", 'e'), ("regexp-extended", 'E'), ("in-place", 'i'), ("file", 'f'),
    ("separate", 's'), ("null-data", 'z'), ("unbuffered", 'u')] (splitInPlace args) 1
  let scripts ← (given.filter fun p => p.1 = 'e' || p.1 = 'f').mapM fun (letter, text) => do
    if letter = 'e' then return text
    match ← content text with
    | .ok bytes => return String.ofList ((textOf bytes).toList.reverse.dropWhile (· = '\n')).reverse
    | .error e => fail 1 ("couldn't open file " ++ text ++ ": " ++ reason e)
  let (scripts, paths) := match scripts, others with
    | [], script :: rest => ([script], rest)
    | scripts, rest => (scripts, rest)
  if scripts.isEmpty then
    tell "Usage: sed [OPTION]... {script-only-if-no-other-script} [input-file]..."
    quit 1
  let steps ← readScript (given.has 'E' || given.has 'r') ("\n".intercalate scripts)
  let quiet := given.has 'n'
  let fs ← files
  let pieces ← (orDash paths).filterMapM fun path => do
    match ← content path with
    | .ok bytes => return some (path, markedLines bytes)
    | .error e => do
      let isDirectory := fs.isDirectory (pathOf path)
      if isDirectory then
        complain (if given.has 'i' then "couldn't edit " ++ path ++ ": not a regular file"
          else "read error on " ++ path ++ ": " ++ reason e)
      else complain ("can't read " ++ path ++ ": " ++ reason e)
      settle (if isDirectory then 4 else 2)
      return none
  if given.has 'i' || given.has 's' then
    pieces.forM fun (path, lines) => do
      let s := editAll quiet steps lines
      let bytes := s.out.reverse.flatten
      if given.has 'i' && path ≠ "-" then
        match ← save path bytes 0o666 with
        | .ok () => pure ()
        | .error e => complain ("couldn't edit " ++ path ++ ": " ++ reason e)
      else put bytes
  else
    let s := editAll quiet steps (joined (pieces.map Prod.snd))
    put s.out.reverse.flatten
    match s.status with
    | some n => if n ≠ 0 then settle n
    | none => pure ()

end DeclBundle.Shell.Utility.Editing
