import DeclBundle.Shell.Machine
import DeclBundle.Shell.Program

namespace DeclBundle.Shell.Child

open Act

abbrev Spawn := Program.Loaded → Job → Job

structure Missing where
  status : Nat
  text : String

def Missing.ofErrno (command : List String) (status : Nat) (e : Errno) : Missing :=
  ⟨status, command.headD "" ++ ": " ++ obstacle "not found" (.os e)⟩

def isAbsence (e : Errno) : Bool :=
  e = .notFound || e = .notDirectory

def statusFor (e : Errno) : Nat :=
  if isAbsence e || e = .linkLoop || e = .nameTooLong then 127 else 126

def loadFirst (fs : FileSystem) (command : List String) (failure : Errno) :
    List String → Except Errno Program.Loaded
  | [] => .error failure
  | path :: others =>
    match Program.load fs Program.maxDepth path command with
    | .ok loaded => .ok loaded
    | .error (.os e) =>
      if e = .badFormat then .ok (Program.asScript path command)
      else loadFirst fs command (if isAbsence e then failure else e) others
    | .error _ => loadFirst fs command failure others

def fromFirstFile (fs : FileSystem) (failure : Errno) : List String → Except Errno (List String)
  | [] => .error failure
  | path :: others =>
    match fs.find true (pathOf path) with
    | .ok (_, .file _ _) => .ok (path :: others)
    | .ok _ => fromFirstFile fs .denied others
    | .error (.os e) => fromFirstFile fs (if isAbsence e then failure else e) others
    | .error _ => fromFirstFile fs failure others

def load (command paths : List String) : Act (Except Missing Program.Loaded) := do
  match loadFirst (← files) command .notFound paths with
  | .ok loaded => return .ok loaded
  | .error e => return .error (.ofErrno command (statusFor e) e)

def find (directories : String) (command : List String) : Act (Except Missing Program.Loaded) := do
  let name := command.headD ""
  if name.toList.contains '/' then load command [name]
  else
    match fromFirstFile (← files) .notFound (Program.candidates directories name) with
    | .error e => return .error (.ofErrno command 127 e)
    | .ok paths => do
      let known := (← get).hashed
      if !known.any (·.1 = name) then
        modify ({ · with hashed := known ++ [(name, paths.headD name)] })
      load command paths

def replacement (directories : String) (command : List String) :
    Act (Except Missing Program.Loaded) := do
  let name := command.headD ""
  load command
    (if name.toList.contains '/' then [name] else Program.candidates directories name)

def job (m : Machine) (name : String) (input : Bytes) : Job where
  files := m.world.files
  name := name
  environment := environment m
  input := input
  inputFault :=
    match m.streams.lookup 0 with
    | none => some .badStream
    | some n =>
      match m.world.handles[n]? with
      | some .directory => some .isDirectory
      | _ => none
  inputSize :=
    match (m.streams.lookup 0).bind (m.world.handles[·]?) with
    | some (.file place _ _ _ _) =>
      match m.world.files.get? place with
      | some (.file content _) => some content.size
      | _ => none
    | _ => none
  outputs := (m.streams.map Prod.fst).filter (0 < ·)
  mask := m.mask
  written := []
  held := []
  status := 0
  killed := none

def deliver (pieces : List (Nat × Bytes)) : Act Bool := do
  let results ← pieces.mapM fun (stream, bytes) => do
    return (← write stream bytes) || stream ≠ 1
  return results.all id

def run (spawn : Spawn) (loaded : Program.Loaded) : Act Termination := do
  let m ← get
  let name := loaded.command.headD ""
  let input ← unread 0
  let done := spawn loaded (job m name input)
  setFiles { done.files with cwd := m.world.files.cwd }
  if done.input.length ≠ input.length then leaveUnread 0 done.input
  if ← deliver done.written.reverse then return done.ending
  else
    let _ ← write 2 (bytesOf (name ++ ": write error: Bad file descriptor\n"))
    return .exited 1

def epitaph? (s : Signal) : Option String :=
  if s.number = 2 || s.number = 13 then none
  else
    ["Hangup", "Interrupt", "Quit", "Illegal instruction", "Trace/breakpoint trap", "Aborted",
      "Bus error", "Floating point exception", "Killed", "User defined signal 1",
      "Segmentation fault", "User defined signal 2", "Broken pipe", "Alarm clock", "Terminated",
      "Stack fault", "Child exited", "Continued", "Stopped (signal)", "Stopped",
      "Stopped (tty input)", "Stopped (tty output)", "Urgent I/O condition",
      "CPU time limit exceeded", "File size limit exceeded", "Virtual timer expired",
      "Profiling timer expired", "Window changed", "I/O possible", "Power failure",
      "Bad system call"][s.number - 1]?

def mourn (ending : Termination) : Act Unit := do
  match ending with
  | .exited _ => return
  | .killed s =>
    match epitaph? s with
    | some text => let _ ← write 2 (bytesOf (text ++ "\n"))
    | none => return

def reap (ending : Termination) : Act Unit := do
  mourn ending
  settle (statusOf ending)

end DeclBundle.Shell.Child
