import DeclBundle.Shell.Builtin
import DeclBundle.Shell.Child
import DeclBundle.Shell.Parser
import DeclBundle.Shell.Redirection

/-!
Running scripts. How deep commands can lie in one another is bounded by a supply; programs are run
by a function that is given.
-/

namespace DeclBundle.Shell

structure Manner where
  tested : Bool
  final : Bool

namespace Manner

def condition : Manner := ⟨true, false⟩
def whole : Manner := ⟨false, true⟩
def part : Manner := ⟨false, false⟩

def inner (x : Manner) : Manner := { x with final := false }

end Manner

namespace Run

open Act

def overflow : Stop := .killed ⟨11⟩

def args : Act (List String) := return (← get).args

def setLine (line : Nat) : Act Unit := modify ({ · with line := line })

inductive Round
  | done
  | again
  | over

def oneRound (body : Act Unit) : Act Round := do
  match ← outcome body with
  | none => return .done
  | some (.loop again levels) =>
    if levels > 1 then throw (.loop again (levels - 1))
    else return if again then .again else .over
  | some stop => throw stop

def inLoop (body : Act Unit) : Act Unit := do
  modify fun m => { m with loops := m.loops + 1 }
  after body (modify fun m => { m with loops := m.loops - 1 })

def conditionRound (negated : Bool) (condition body : Act Unit) (last : Nat) :
    Act (Bool × Nat) := do
  match ← oneRound condition with
  | .again => return (true, last)
  | .over => return (false, last)
  | .done =>
    if decide ((← get).status = 0) = negated then return (false, last)
    match ← oneRound body with
    | .over => return (false, (← get).status)
    | _ => return (true, (← get).status)

def rounds (round : Nat → Act (Bool × Nat)) : (most : Nat) → (last : Nat) → Act Unit
  | 0, last => settle last
  | most + 1, last => do
    match ← round last with
    | (true, last) => rounds round most last
    | (false, last) => settle last

def mostRounds : Nat := 10000000

def mostCalls : Nat := 1000

def forEach (body : String → Act Unit) : List String → Act Unit
  | [] => return
  | item :: rest => do
    match ← oneRound (body item) with
    | .over => return
    | _ => forEach body rest

def chosen (accepts : List Word → Act Bool) : List (List Word × Command) → Act Command
  | [] => return .nothing
  | (patterns, body) :: rest => do
    if ← accepts patterns then return body else chosen accepts rest

def turnBack (before : List (Nat × Nat)) (turns : List Turn) : Act Unit :=
  turns.forM fun t =>
    match before.lookup t.stream with
    | some handle => setStream t.stream handle
    | none => closeStream t.stream

/-- Does something in a copy of the shell. Only what it does to the tree and the streams lasts. -/
def inCopy {α : Type} (body : Act α) : Act α := do
  let m ← get
  let process := m.world.newestProcess + 1
  set { m with
    world := { m.world with newestProcess := process }
    process := process
    traps := m.traps.filter (·.2 = "") }
  let result ← body
  let world := (← get).world
  set { m with world := { world with files := { world.files with cwd := m.world.files.cwd } } }
  return result

def drained (handle : Nat) : Act Bytes := do
  match (← get).world.handles[handle]? with
  | some (.sink pieces) => return pieces.reverse.flatten
  | _ => return []

def captured (bytes : Bytes) : String :=
  textOf (((bytes.reverse.dropWhile (· = lineFeed)).reverse).filter (· ≠ 0))

def throughPipes (stage : (plumbing : Act Unit) → Command → Act Termination)
    (input : Act Unit) : List Command → Act Termination
  | [] => return .exited 0
  | [last] => stage input last
  | first :: others => do
    let sink ← addHandle (.sink [])
    let _ ← stage (do input; setStream 1 sink) first
    let bytes ← drained sink
    let source ← addHandle (.source bytes)
    throughPipes stage (setStream 0 source) others

def lookUp (stages : List Command) : Act Unit :=
  stages.forM fun stage => do
    match stage with
    | .simple _ _ (w :: _) _ =>
      match Word.plain? w with
      | some name =>
        if isName name.toList && !Builtin.names.contains name &&
            !(← get).functions.any (·.1 = name) then
          let _ ← Child.find ((← value? "PATH").getD "") [name]
      | none => pure ()
    | _ => pure ()

def hasTraps (m : Machine) : Bool := m.traps.any (·.2 ≠ "")

def conclude (x : Manner) (ending : Termination) : Act Unit := do
  match ending with
  | .killed s => if x.final && !hasTraps (← get) then throw (.killed s)
  | .exited _ => pure ()
  Child.reap ending

def checkStatus (x : Manner) : Act Unit := do
  if !x.tested && (← get).status ≠ 0 && (← hasOption 'e') then throw .leave

def eachLine (perform : (last : Bool) → Command → Act Unit) : (count : Nat) → Source → Act Bool
  | 0, _ => return false
  | count + 1, source => do
    let m ← get
    match Parser.line?.run
      { source with nextNumber := m.nextDocument, aliases := m.aliases } with
    | .error fault => do
      let _ ← write 2 (bytesOf (heading m fault.line m.speaker ++ fault.text ++ "\n"))
      settle 2
      throw .fault
    | .ok (found, source) => do
      modify fun m =>
        { m with documents := source.documents ++ m.documents, nextDocument := source.nextNumber }
      match found with
      | none => return false
      | some command => do
        let last := source.pushed.any Token.isFinish
        perform last command
        let more ← eachLine perform count { source with documents := [] }
        return more ||
          match command with
          | .nothing => false
          | _ => true

def behind? : List String → Option (Bool × List String)
  | [] => none
  | arg :: rest =>
    match arg.toList with
    | ['-', '-'] => if rest.isEmpty then none else some (false, rest)
    | '-' :: c :: letters =>
      if (c :: letters).all (· = 'p') then (behind? rest).map fun found => (true, found.2)
      else none
    | _ => some (false, arg :: rest)

theorem behind?_length {args : List String} {usual : Bool} {found : List String}
    (h : behind? args = some (usual, found)) : found.length ≤ args.length := by
  fun_induction behind? args generalizing usual found with
  | case1 => simp at h
  | case2 => simp at h
  | case3 =>
    simp only [Option.some.injEq, Prod.mk.injEq] at h
    simp [← h.2]
  | case4 arg rest c letters hd ha hall ih =>
    simp only [Option.map_eq_some_iff, Prod.mk.injEq] at h
    obtain ⟨⟨u, f⟩, hf, -, rfl⟩ := h
    simpa using Nat.le_succ_of_le (ih hf)
  | case5 => simp at h
  | case6 =>
    simp only [Option.some.injEq, Prod.mk.injEq] at h
    simp [← h.2]

structure Call where
  direct : Bool
  usual : Bool
  words : List String

def Call.ofWords (direct usual : Bool) : List String → Call
  | "command" :: args =>
    match _h : behind? args with
    | some (u, rest) => Call.ofWords true (usual || u) rest
    | none => ⟨direct, usual, "command" :: args⟩
  | words => ⟨direct, usual, words⟩
termination_by words => words.length
decreasing_by exact Nat.lt_succ_of_le (behind?_length _h)

def takesAssignments (words : List String) : Bool :=
  match (Call.ofWords false false words).words with
  | name :: _ => ["export", "readonly", "local", "alias"].contains name
  | [] => false

def arguments (capture : Capture) : (found : List String) → List Word → Act (List String)
  | found, [] => return found
  | found, w :: rest => do
    let more ← match takesAssignments found, w.assignment? with
      | true, some (name, value) => do
        pure [name ++ "=" ++ (← Expansion.text capture .value value)]
      | _, _ => Expansion.fields capture w
    arguments capture (found ++ more) rest

def promptWord (text : String) : Word :=
  let reader := Quoting.parts (Parser.nested (20 * text.length + 20)) (4 * text.length + 4)
    .wholeDocument
  match reader.run (.ofText text.toList 0) with
  | .ok (w, _) => w
  | .error _ => [.text true text.toList]

def trace (capture : Capture) (errors : Option Nat) (words : List String) : Act Unit := do
  if ← hasOption 'x' then
    let mark ← Expansion.text capture .document (promptWord ((← value? "PS4").getD ""))
    match errors with
    | some handle =>
      let _ ← writeTo handle (bytesOf (mark ++ " ".intercalate words ++ "\n"))
    | none => pure ()

def assignAll (capture : Capture) (assignOne : String → String → Act Unit) :
    List (String × Word) → Act (List String)
  | [] => return []
  | (name, w) :: rest => do
    let text ← Expansion.text capture .value w
    assignOne name text
    return (name ++ "=" ++ text) :: (← assignAll capture assignOne rest)

def markExported (name : String) : Act Unit := do
  putVariable name { (← named? name).getD .fresh with exported := true }

def assignExported (name value : String) : Act Unit := do
  assign name value
  markExported name

def assignForNow (name value : String) : Act Unit := do
  makeLocal name
  assignExported name value

/-- An error ends a command of the shell, and the shell too if the command is a special one. -/
def forgiving (special : Bool) (body : Act Unit) : Act Unit := do
  match ← outcome body with
  | some .fault => if special then throw .fault
  | some stop => throw stop
  | none => return

def speaking {α : Type} (speaker : String) (body : Act α) : Act α := do
  let before := (← get).speaker
  modify ({ · with speaker := some speaker })
  after body (modify ({ · with speaker := before }))

def program (spawn : Child.Spawn) (x : Manner) (usual : Bool) (words : List String) :
    Act Unit := do
  let own := (← value? "PATH").getD ""
  let directories := if usual then Program.usualDirectories else own
  match ← Child.find directories words with
  | .error missing => do
    complain missing.text
    settle missing.status
  | .ok loaded => do conclude x (← Child.run spawn loaded)

def replace (spawn : Child.Spawn) : List String → Act Unit
  | [] => return
  | words => do
    let directories := (← value? "PATH").getD ""
    match ← Child.replacement directories words with
    | .error missing => do
      complain missing.text
      settle missing.status
      throw .leave
    | .ok loaded => do
      match ← Child.run spawn loaded with
      | .killed s => throw (.killed s)
      | .exited status => do
        settle status.toNat
        modify ({ · with traps := [] })
        throw .leave

def sourceFile (name : String) : Act String := do
  if name.toList.contains '/' then return name
  let fs ← files
  let paths := Program.candidates ((← value? "PATH").getD "") name
  match paths.find? fun p => (fs.find true (pathOf p)).toOption.any (·.2.isFile) with
  | some path => return path
  | none => fail 2 (name ++ ": not found")

def fileText (path : String) : Act String := do
  if Turn.streamOf? path = some 0 then
    let input ← unread 0
    leaveUnread 0 []
    return textOf input
  match (← files).find true (pathOf path) with
  | .ok (_, .file content _) => return textOf content.data.toList
  | .ok _ => return ""
  | .error e => fail 2 (Turn.refusal false path e)

def dieOfSignals : Act Unit := do
  let m ← get
  let fatal := m.world.signals.find? fun (process, s) =>
    process = m.process && !s.isIgnored &&
      (s = .kill || (m.traps.lookup (Builtin.signalTitle s.number)).isNone)
  match fatal with
  | some (_, s) => throw (.killed s)
  | none => return

mutual

def run (spawn : Child.Spawn) : (fuel : Nat) → Manner → Command → Act Unit
  | 0, _, _ => throw overflow
  | fuel + 1, x, command => do
    if ← hasOption 'n' then return
    match command with
    | .nothing => return
    | .seq first second => do
      run spawn fuel x.inner first
      run spawn fuel x second
    | .and first second => do
      run spawn fuel .condition first
      if (← get).status = 0 then run spawn fuel x second
    | .or first second => do
      run spawn fuel .condition first
      if (← get).status ≠ 0 then run spawn fuel x second
    | .not body => do
      run spawn fuel .condition body
      settle (if (← get).status = 0 then 1 else 0)
    | .branch condition yes no => do
      run spawn fuel .condition condition
      if (← get).status = 0 then run spawn fuel x yes
      else
        match no with
        | .nothing => settle 0
        | no => run spawn fuel x no
    | .loop negated condition body =>
      inLoop (rounds (conditionRound negated (run spawn fuel .condition condition)
        (run spawn fuel x.inner body)) mostRounds 0)
    | .each line name words body => do
      setLine line
      let items ← match words with
        | none => args
        | some words => do
          let found ← words.mapM (Expansion.fields (capture spawn fuel))
          pure found.flatten
      if items.isEmpty then settle 0
      inLoop (forEach (fun item => do assign name item; run spawn fuel x.inner body) items)
    | .choice line subject cases => do
      setLine line
      let text ← Expansion.text (capture spawn fuel) .text subject
      match ← chosen (Expansion.accepted (capture spawn fuel) text) cases with
      | .nothing => settle 0
      | body => run spawn fuel x body
    | .subshell line body => do
      setLine line
      let ending ← inCopy (ended spawn fuel (run spawn fuel ⟨x.tested, true⟩ body))
      conclude x ending
      notice spawn fuel
      checkStatus x
    | .background body => do
      let process := (← get).world.newestProcess + 1
      let ending ← inCopy do
        setStream 0 (← addHandle .nothing)
        ended spawn fuel (run spawn fuel .whole body)
      modify fun m => { m with background := (process, statusOf ending) :: m.background }
      settle 0
      notice spawn fuel
    | .pipe stages => do
      let stage (plumbing : Act Unit) (body : Command) : Act Termination :=
        inCopy do
          plumbing
          ended spawn fuel (run spawn fuel ⟨x.tested, true⟩ body)
      lookUp stages
      Child.reap (← throughPipes stage (return) stages)
      notice spawn fuel
      checkStatus x
    | .define name body => do
      modify fun m => { m with functions := (name, body) :: m.functions.filter (·.1 ≠ name) }
      settle 0
    | .redirected line body redirects => do
      setLine line
      let before := (← get).streams
      let turns ← redirects.mapM (Turn.ofRedirect (capture spawn fuel))
      let turned ← Turn.performAll turns
      after (if turned then run spawn fuel x.inner body else return) (turnBack before turns)
      if !turned then checkStatus x
    | .simple line assignments words redirects => do
      setLine line
      modify ({ · with outputStatus := none })
      let capture := capture spawn fuel
      let words ← arguments capture [] words
      let before := (← get).streams
      let turns ← redirects.mapM (Turn.ofRedirect capture)
      let errors := before.lookup 2
      let special := isSpecial (words.headD "")
      let call := Call.ofWords false false words
      let body : Act Unit := do
        if !(← Turn.performAll turns) then
          if special then throw .fault
        else if words.isEmpty then
          trace capture errors (← assignAll capture assign assignments)
          settle ((← get).outputStatus.getD 0)
        else if special then
          let becomes := call.words.head? = some "exec" && call.words.length > 1
          let shown ← assignAll capture (if becomes then assignExported else assign) assignments
          trace capture errors (shown ++ words)
          invoke spawn fuel x special call
        else withFrame do
          let shown ← assignAll capture assignForNow assignments
          trace capture errors (shown ++ words)
          invoke spawn fuel x special call
      if call.words = ["exec"] then body else after body (turnBack before turns)
      notice spawn fuel
      checkStatus x

def invoke (spawn : Child.Spawn) : (fuel : Nat) → Manner → (special : Bool) → Call → Act Unit
  | 0, _, _, _ => throw overflow
  | fuel + 1, x, special, call => do
    match call.words with
    | [] => return
    | name :: args =>
      let functions := (← get).functions
      let function? := if call.direct then none else functions.lookup name
      match isSpecial name, function? with
      | false, some body => callFunction spawn fuel x body args
      | _, _ =>
        if Builtin.names.contains name then
          forgiving special (speaking name (ofShell spawn fuel x name args))
        else program spawn x call.usual call.words

def callFunction (spawn : Child.Spawn) : (fuel : Nat) → Manner → Command → List String → Act Unit
  | 0, _, _, _ => throw overflow
  | fuel + 1, x, body, args => do
    let before ← get
    if before.calls ≥ mostCalls then
      fail 2 ("Maximum function recursion depth (" ++ toString mostCalls ++ ") reached")
    modify ({ · with
      args := args
      loops := 0
      calls := before.calls + 1
      optionIndex := 1
      optionOffset := none })
    let work : Act Unit := do
      match ← outcome (run spawn fuel x.inner body) with
      | some .back | none => return
      | some stop => throw stop
    after work (modify ({ · with
      args := before.args
      loops := before.loops
      calls := before.calls
      optionIndex := before.optionIndex
      optionOffset := before.optionOffset }))

def ofShell (spawn : Child.Spawn) : (fuel : Nat) → Manner → String → List String → Act Unit
  | 0, _, _, _ => throw overflow
  | fuel + 1, x, name, args => do
    match name with
    | "eval" => script spawn fuel x.inner (" ".intercalate args)
    | "exec" => do
      settle 0
      replace spawn args
    | "command" => do
      settle 0
      let (given, names) ← Builtin.letters ['p', 'v', 'V'] args
      match names with
      | name :: _ => if given.any (· ≠ 'p') then Builtin.describe (given.contains 'v') name
      | [] => return
    | "." => do
      let (_, paths) ← Builtin.letters [] args
      match paths with
      | [] => settle 0
      | name :: _ => do
        let path ← sourceFile name
        let text ← fileText path
        match ← outcome (speaking path (script spawn fuel .part text)) with
        | some .back | none => return
        | some stop => throw stop
    | name => do
      if name ≠ "exit" && name ≠ "return" then settle 0
      Builtin.run name args

def script (spawn : Child.Spawn) : (fuel : Nat) → Manner → String → Act Unit
  | 0, _, _ => throw overflow
  | fuel + 1, x, text => do
    let source := Source.ofText text.toList 0
    let hadCommands ← eachLine
      (fun last command => run spawn fuel ⟨x.tested, x.final && last⟩ command)
      (text.length + 2) source
    if !hadCommands then settle 0

def capture (spawn : Child.Spawn) : (fuel : Nat) → Capture
  | 0, _ => throw overflow
  | _ + 1, .nothing => return ""
  | fuel + 1, body => do
    let sink ← addHandle (.sink [])
    let ending ← inCopy do
      setStream 1 sink
      ended spawn fuel (run spawn fuel .whole body)
    Child.mourn ending
    dieOfSignals
    modify ({ · with outputStatus := some (statusOf ending) })
    return captured (← drained sink)

def ended (spawn : Child.Spawn) : (fuel : Nat) → Act Unit → Act Termination
  | 0, _ => throw overflow
  | fuel + 1, body => do
    match ← outcome body with
    | some (.killed s) => return .killed s
    | _ =>
      let m ← get
      match m.traps.lookup Builtin.exitName with
      | none => return .exited (UInt8.ofNat m.status)
      | some action => do
        let traps := m.traps.filter (·.1 ≠ Builtin.exitName)
        set { m with traps := traps, kept := some m.status }
        match ← outcome (script spawn fuel .part action) with
        | some (.killed s) => return .killed s
        | _ => return .exited (UInt8.ofNat ((← get).kept.getD m.status))

def notice (spawn : Child.Spawn) : (fuel : Nat) → Act Unit
  | 0 => return
  | fuel + 1 => do
    let m ← get
    match m.world.signals.find? (·.1 = m.process) with
    | none => return
    | some (process, s) => do
      updateWorld fun w => { w with signals := w.signals.erase (process, s) }
      let action? := if s = .kill then none else m.traps.lookup (Builtin.signalTitle s.number)
      match action? with
      | some action => do
        modify ({ · with kept := m.kept.orElse fun _ => some m.status })
        script spawn fuel .part action
        modify ({ · with status := m.status, kept := m.kept })
      | none => if !s.isIgnored then throw (.killed s)
      notice spawn fuel

end

end Run

end DeclBundle.Shell
