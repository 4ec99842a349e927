import DeclBundle.Shell.Job
import DeclBundle.Shell.Numeral
import DeclBundle.Shell.Script

/-!
The state of a shell: its variables and functions, where its streams lead, and the tree. What is
done in a shell is an action of type `Act`, which can stop the shell or what it is in the midst of.
-/

namespace DeclBundle.Shell

inductive Handle
  | nothing
  | directory
  | outer (stream : Nat)
  | source (rest : Bytes)
  | sink (pieces : List Bytes)
  | file (place : Location) (position : Nat) (reads writes appends : Bool)

structure World where
  files : FileSystem
  handles : Array Handle
  written : List (Nat × Bytes)
  signals : List (Nat × Signal)
  newestProcess : Nat

structure Variable where
  value : Option String
  exported : Bool
  constant : Bool

def Variable.fresh : Variable := ⟨none, false, false⟩

structure Machine where
  world : World
  name : String
  args : List String
  store : List (String × Variable)
  functions : List (String × Command)
  aliases : List (String × String)
  documents : List (Nat × Word)
  nextDocument : Nat
  streams : List (Nat × Nat)
  options : List Char
  status : Nat
  outputStatus : Option Nat
  line : Nat
  speaker : Option String
  traps : List (String × String)
  directory : String
  locals : List (List (String × Option Variable))
  loops : Nat
  calls : Nat
  mainProcess : Nat
  process : Nat
  background : List (Nat × Nat)
  mask : Nat
  optionIndex : Nat
  optionOffset : Option Nat
  kept : Option Nat
  hashed : List (String × String)

inductive Stop
  | loop (again : Bool) (levels : Nat)
  | back
  | leave
  | fault
  | killed (signal : Signal)

abbrev Act := ExceptT Stop (StateM Machine)

namespace Act

def files : Act FileSystem := return (← get).world.files

def updateWorld (f : World → World) : Act Unit :=
  modify fun m => { m with world := f m.world }

def setFiles (fs : FileSystem) : Act Unit := updateWorld ({ · with files := fs })

def settle (status : Nat) : Act Unit := modify ({ · with status := status })

def hasOption (letter : Char) : Act Bool := return (← get).options.contains letter

def after {α : Type} (body : Act α) (last : Act Unit) : Act α := ExceptT.mk do
  let result ← body.run
  match ← last.run with
  | .ok () => return result
  | .error stop => return .error stop

def outcome (body : Act Unit) : Act (Option Stop) := ExceptT.mk do
  match ← body.run with
  | .ok () => return .ok none
  | .error stop => return .ok (some stop)

def addHandle (h : Handle) : Act Nat := do
  let n := (← get).world.handles.size
  updateWorld fun w => { w with handles := w.handles.push h }
  return n

def setStream (stream handle : Nat) : Act Unit :=
  modify fun m =>
    { m with streams := (stream, handle) :: m.streams.filter (·.1 ≠ stream) }

def closeStream (stream : Nat) : Act Unit :=
  modify fun m => { m with streams := m.streams.filter (·.1 ≠ stream) }

def overwrite (content : ByteArray) (position : Nat) (bytes : ByteArray) : ByteArray :=
  let before := content.extract 0 position
  let gap : ByteArray := ⟨Array.replicate (position - content.size) 0⟩
  before ++ gap ++ bytes ++ content.extract (position + bytes.size) content.size

def putHandle (n : Nat) (h : Handle) : Act Unit :=
  updateWorld fun w => { w with handles := w.handles.setIfInBounds n h }

def writeTo (n : Nat) (bytes : Bytes) : Act Bool := do
  if bytes.isEmpty then return true
  let m ← get
  match m.world.handles[n]? with
  | some .nothing => return true
  | some (.outer k) => do
    updateWorld fun w => { w with written := (k, bytes) :: w.written }
    return true
  | some (.sink pieces) => do
    putHandle n (.sink (bytes :: pieces))
    return true
  | some (.file place position reads true appends) => do
    match m.world.files.get? place with
    | some (.file content mode) => do
      let position := if appends then content.size else position
      let after := overwrite content position ⟨bytes.toArray⟩
      setFiles (m.world.files.put place (.file after mode))
      putHandle n (.file place (position + bytes.length) reads true appends)
      return true
    | _ => return true
  | _ => return false

def write (stream : Nat) (bytes : Bytes) : Act Bool := do
  match (← get).streams.lookup stream with
  | none => return false
  | some n => writeTo n bytes

def unread (stream : Nat) : Act Bytes := do
  let m ← get
  match (m.streams.lookup stream).bind (m.world.handles[·]?) with
  | some (.source rest) => return rest
  | some (.file place position true _ _) =>
    match m.world.files.get? place with
    | some (.file content _) => return content.data.toList.drop position
    | _ => return []
  | _ => return []

def leaveUnread (stream : Nat) (rest : Bytes) : Act Unit := do
  let m ← get
  match m.streams.lookup stream with
  | none => return
  | some n =>
    match m.world.handles[n]? with
    | some (.source _) => putHandle n (.source rest)
    | some (.file place _ true writes appends) =>
      match m.world.files.get? place with
      | some (.file content _) =>
        putHandle n (.file place (content.size - rest.length) true writes appends)
      | _ => return
    | _ => return

def heading (m : Machine) (line : Nat) (speaker : Option String) : String :=
  m.name ++ ": " ++ toString line ++ ": " ++
    match speaker with
    | some s => s ++ ": "
    | none => ""

def complain (text : String) : Act Unit := do
  let m ← get
  let _ ← write 2 (bytesOf (heading m m.line m.speaker ++ text ++ "\n"))

def fail {α : Type} (status : Nat) (text : String) : Act α := do
  complain text
  settle status
  throw .fault

def obstacle (absent : String) : IoError → String
  | .os number =>
    if number = .notFound ∨ number = .notDirectory then absent else number.text
  | e => e.message

def named? (name : String) : Act (Option Variable) := return (← get).store.lookup name

def value? (name : String) : Act (Option String) := return (← named? name).bind (·.value)

def putVariable (name : String) (v : Variable) : Act Unit :=
  modify fun m =>
    { m with store := (name, v) :: m.store.filter (·.1 ≠ name) }

def forget (name : String) : Act Unit :=
  modify fun m => { m with store := m.store.filter (·.1 ≠ name) }

def assign (name value : String) : Act Unit := do
  let v := (← named? name).getD .fresh
  if v.constant then fail 2 (name ++ ": is read only")
  let exported := v.exported || (← hasOption 'a')
  putVariable name { v with value := some value, exported := exported }
  if name = "OPTIND" then
    let index := if value ≠ "" && value.toList.all Char.isDigit then numberOf 10 value.toList else 1
    modify ({ · with optionIndex := max index 1, optionOffset := none })

def makeLocal (name : String) : Act Unit := do
  let before ← named? name
  modify fun m =>
    match m.locals with
    | [] => m
    | frame :: others =>
      if frame.any (·.1 = name) then m
      else { m with locals := ((name, before) :: frame) :: others }

def restore (name : String) (before : Option Variable) : Act Unit :=
  match before with
  | some v => putVariable name v
  | none => forget name

def withFrame {α : Type} (body : Act α) : Act α := do
  modify fun m => { m with locals := [] :: m.locals }
  after body do
    let frame := (← get).locals.headD []
    modify fun m => { m with locals := m.locals.drop 1 }
    frame.forM fun (name, before) => restore name before

def rowOf (name : String) : Nat :=
  let bytes := bytesOf name
  (bytes.foldl (fun n b => n + b.toNat) ((bytes.headD 0).toNat * 16)) % 39

def environment (m : Machine) : List (String × String) :=
  let exported := m.store.reverse.filterMap fun (name, v) =>
    if v.exported then v.value.map (name, ·) else none
  exported.mergeSort fun a b => decide (rowOf a.1 ≤ rowOf b.1)

def optionLetters : List (Char × String) :=
  [('e', "errexit"), ('f', "noglob"), ('I', "ignoreeof"), ('i', "interactive"), ('m', "monitor"),
    ('n', "noexec"), ('s', "stdin"), ('x', "xtrace"), ('v', "verbose"), ('V', "vi"),
    ('E', "emacs"), ('C', "noclobber"), ('a', "allexport"), ('b', "notify"), ('u', "nounset"),
    ('p', "privileged")]

def shownOptions (m : Machine) : String :=
  String.ofList ((optionLetters.map Prod.fst).filter m.options.contains).reverse

def isNumber (name : String) : Bool := name ≠ "" && name.toList.all Char.isDigit

def parameter? (name : String) : Act (Option String) := do
  let m ← get
  match name with
  | "?" => return some (toString m.status)
  | "#" => return some (toString m.args.length)
  | "$" => return some (toString m.mainProcess)
  | "!" => return m.background.head?.map fun p => toString p.1
  | "-" => return some (shownOptions m)
  | name =>
    if isNumber name then
      match numberOf 10 name.toList with
      | 0 => return some m.name
      | n + 1 => return m.args[n]?
    else value? name

def isSpecial (name : String) : Bool :=
  [".", ":", "break", "continue", "eval", "exec", "exit", "export", "local", "readonly", "return",
    "set", "shift", "times", "trap", "unset"].contains name

def inQuotes (text : String) : String :=
  "'" ++ "'\"'\"'".intercalate (text.splitOn "'") ++ "'"

def number (text : String) : Act Nat :=
  match Numeral.whole? false text with
  | some n =>
    if 0 ≤ n && n ≤ Int32.maxValue.toInt then return n.toNat
    else fail 2 ("Illegal number: " ++ text)
  | none => fail 2 ("Illegal number: " ++ text)

end Act

end DeclBundle.Shell
