import DeclBundle.Compiler
import DeclBundle.Shell.Run
import DeclBundle.Shell.Utility

/-!
Starting programs: the usual ones, the shell, and scripts, each of which can start others. How many
of them can wait for one another is bounded.
-/

namespace DeclBundle.Shell

open Act

def initialVariables (j : Job) : List (String × Variable) :=
  let own (name value : String) : String × Variable := (name, ⟨some value, false, false⟩)
  let inherited := (j.environment.filter fun (name, _) =>
    isName name.toList && !(["IFS", "PWD"].contains name)).map fun (name, value) =>
      (name, Variable.mk (some value) true false)
  let usual := [own "PATH" Program.usualDirectories, own "IFS" " \t\n", own "OPTIND" "1",
    own "PPID" "1", own "PS1" "# ", own "PS2" "> ", own "PS4" "+ "].filter
      fun p => !inherited.any (·.1 = p.1)
  ("PWD", ⟨some (placeOf j.files.cwd), true, false⟩) :: inherited.reverse ++ usual

def Machine.ofJob (j : Job) : Machine where
  world :=
    { files := j.files
      handles := (Handle.source j.input :: j.outputs.map .outer).toArray
      written := j.written
      signals := []
      newestProcess := 1000 }
  name := j.name
  args := []
  store := initialVariables j
  functions := []
  aliases := []
  documents := []
  nextDocument := 0
  streams := (0, 0) :: j.outputs.zipIdx.map fun (stream, k) => (stream, k + 1)
  options := []
  status := 0
  outputStatus := none
  line := 0
  speaker := none
  traps := []
  directory := placeOf j.files.cwd
  locals := []
  loops := 0
  calls := 0
  mainProcess := 1000
  process := 1000
  background := []
  mask := j.mask
  optionIndex := 1
  optionOffset := none
  kept := none
  hashed := []

def Machine.toJob (m : Machine) (j : Job) (ending : Termination) : Job :=
  let input : Bytes := match m.world.handles[(0 : Nat)]? with
    | some (.source rest) => rest
    | _ => []
  let j := { j with files := m.world.files, input := input, written := m.world.written }
  match ending with
  | .exited status => { j with status := status.toNat }
  | .killed s => { j with killed := some s }

def supply : Nat := 20000

def isStartOption (c : Char) : Bool :=
  Builtin.settable.contains c || c = 'c' || c = 's' || c = 'l'

def work (spawn : Child.Spawn) (words : List String) : Act Unit := do
  let script (x : Manner) (text : String) : Act Unit := do
    modify ({ · with line := 1 })
    Run.script spawn supply x text
  let args := (← Builtin.setOptions isStartOption (words.length + 1) words).getD []
  let inArgument ← hasOption 'c'
  let fromInput ← hasOption 's'
  modify fun m => { m with options := m.options.filter (· ≠ 'c') }
  match inArgument, args with
  | true, [] => fail 2 "-c requires an argument"
  | true, text :: args => do
    modify fun m => { m with name := args.headD m.name, args := args.drop 1 }
    script ⟨false, !fromInput⟩ text
  | false, args =>
    if args.isEmpty || fromInput then
      modify ({ · with args := args })
      let input ← unread 0
      leaveUnread 0 []
      script .part (textOf input)
    else
      let path := args.headD ""
      let text ← Run.fileText path
      modify ({ · with name := path, args := args.drop 1 })
      script .part text

def shell (spawn : Child.Spawn) (command : List String) (j : Job) : Job :=
  let start := Machine.ofJob { j with name := command.headD "" }
  match (Run.ended spawn supply (work spawn (command.drop 1))).run start with
  | (.ok ending, m) => m.toJob j ending
  | (.error _, m) => m.toJob j (.exited (UInt8.ofNat m.status))

def startFrom (spawn : Child.Spawn) : Start := fun command => do
  Work.flush
  let j ← get
  match Program.search j.files true (j.environment.lookup "PATH") command with
  | .error e => return .error e
  | .ok loaded =>
    let done := spawn loaded { j with status := 0 }
    set { j with
      files := { done.files with cwd := j.files.cwd }
      input := done.input
      written := done.written }
    return .ok done.ending

def spawn : (depth : Nat) → Child.Spawn
  | 0, _, j => { j with killed := some .kill }
  | depth + 1, loaded, j =>
    let name := loaded.command.headD ""
    if Utility.shellNames.contains loaded.program then shell (spawn depth) loaded.command j
    else
      match (Utility.table (startFrom (spawn depth))).lookup loaded.program with
      | some utility => { j with name := name }.run (utility (loaded.command.drop 1))
      | none => { j with killed := some .kill }

def maxDepth : Nat := 50

def streamOf (j : Job) (stream : Nat) : ByteArray :=
  let pieces := j.written.reverse.filterMap fun (k, bytes) =>
    if k = stream then some bytes else none
  ⟨pieces.flatten.toArray⟩

def launch : Launcher := fun program args fs =>
  let command := (program :: args).map encoded
  if command.any (·.toList.contains '\x00') then (fs, .error .nulArgument)
  else
    match Program.search fs false (some Program.usualDirectories) command with
    | .error e => (fs, .error e)
    | .ok loaded =>
      let done := spawn maxDepth loaded
        { files := fs, name := encoded program, environment := environment, input := [],
          inputFault := none, inputSize := none, outputs := [1, 2], mask := 0o022,
          written := [], held := [], status := 0, killed := none }
      ({ done.files with cwd := fs.cwd },
        .ok ⟨done.ending, streamOf done 1, streamOf done 2⟩)
where
  environment : List (String × String) :=
    [("PATH", Program.usualDirectories), ("HOME", "/root")]

end DeclBundle.Shell
