import DeclBundle.FileSystem.Remove
import DeclBundle.FileSystem.Walk
import DeclBundle.FileSystem.Write
import DeclBundle.Shell.Quote
import DeclBundle.Signal

namespace DeclBundle.Shell

structure Job where
  files : FileSystem
  name : String
  environment : List (String × String)
  input : Bytes
  inputFault : Option Errno
  inputSize : Option Nat
  outputs : List Nat
  mask : Nat
  written : List (Nat × Bytes)
  held : List Bytes
  status : Nat
  killed : Option Signal

abbrev Work := ExceptT Unit (StateM Job)

abbrev Utility := List String → Work Unit

abbrev Start := (command : List String) → Work (Except IoError Termination)

namespace Job

def ending (j : Job) : Termination :=
  match j.killed with
  | some s => .killed s
  | none => .exited (UInt8.ofNat j.status)

def run (j : Job) (work : Work Unit) : Job :=
  let j := (work.run j).2
  if j.held.isEmpty then j
  else { j with written := (1, j.held.reverse.flatten) :: j.written, held := [] }

end Job

def statusOf : Termination → Nat
  | .exited status => status.toNat
  | .killed s => 128 + s.number

namespace Work

def files : Work FileSystem := return (← get).files

def setFiles (fs : FileSystem) : Work Unit := modify ({ · with files := fs })

def put (bytes : Bytes) : Work Unit :=
  modify fun j => { j with held := bytes :: j.held }

def say (text : String) : Work Unit := put (bytesOf text)

def sayLine (text : String) : Work Unit := say (text ++ "\n")

def flush : Work Unit :=
  modify fun j =>
    if j.held.isEmpty then j
    else { j with written := (1, j.held.reverse.flatten) :: j.written, held := [] }

def settle (status : Nat) : Work Unit := modify ({ · with status := status })

def quit {α : Type} (status : Nat) : Work α := do
  settle status
  throw ()

def tell (text : String) : Work Unit :=
  modify fun j => { j with written := (2, bytesOf (text ++ "\n")) :: j.written }

def complain (text : String) : Work Unit := do
  tell ((← get).name ++ ": " ++ text)
  if (← get).status = 0 then settle 1

def fail {α : Type} (status : Nat) (text : String) : Work α := do
  complain text
  quit status

def misused {α : Type} (status : Nat) (text : String) : Work α := do
  complain text
  tell ("Try '" ++ (← get).name ++ " --help' for more information.")
  quit status

def reason : IoError → String
  | .os number => number.text
  | e => e.message

def complainOf (what : String) (e : IoError) : Work Unit :=
  complain (what ++ ": " ++ reason e)

def input : Work Bytes := do
  let j ← get
  set { j with input := [] }
  return j.input

def content (path : String) : Work (Except IoError Bytes) := do
  if path = "-" || path = "/dev/stdin" then
    match (← get).inputFault with
    | some e => return .error (.os e)
    | none => return .ok (← input)
  match (← files).find true (pathOf path) with
  | .ok (_, .file content _) => return .ok content.data.toList
  | .ok _ => return .error (.os .isDirectory)
  | .error e => return .error e

def save (path : String) (content : Bytes) (mode : Nat) : Work (Except IoError Unit) := do
  let fs ← files
  let isNew := !fs.exists? (pathOf path)
  match fs.write (pathOf path) ⟨content.toArray⟩ with
  | .error e => return .error e
  | .ok fs => do
    let mask := (← get).mask
    let bits := mode - (mode &&& mask)
    setFiles (if isNew then (fs.setMode (pathOf path) bits).toOption.getD fs else fs)
    return .ok ()

abbrev Given := List (Char × String)

structure Known where
  letters : List Char
  names : List (String × Char)
  anywhere : Bool

namespace Known

def isValued (c : Char) : List Char → Bool
  | [] => false
  | a :: rest => (a = c && rest.head? = some ':') || isValued c rest

def takesValue (k : Known) (c : Char) : Bool :=
  isValued c k.letters

def knows (k : Known) (c : Char) : Bool :=
  c ≠ ':' && k.letters.contains c

def readLetters (k : Known) (next? : Option String) :
    List Char → Except String (Given × Bool)
  | [] => .ok ([], false)
  | c :: rest =>
    if !k.knows c then .error ("invalid option -- '" ++ String.ofList [c] ++ "'")
    else if k.takesValue c then
      if !rest.isEmpty then .ok ([(c, String.ofList rest)], false)
      else
        match next? with
        | some value => .ok ([(c, value)], true)
        | none => .error ("option requires an argument -- '" ++ String.ofList [c] ++ "'")
    else do
      let (given, usesNext) ← readLetters k next? rest
      return ((c, "") :: given, usesNext)

def readName (k : Known) (next? : Option String) (text : String) :
    Except String (Given × Bool) := do
  let name := text.toList.takeWhile (· ≠ '=')
  let value := (text.toList.drop name.length)
  let shown := "'--" ++ String.ofList name ++ "'"
  let found : List (String × Char) := match k.names.filter fun known => known.1.toList = name with
    | [] => k.names.filter fun known => name.isPrefixOf known.1.toList
    | exact => exact
  match found with
  | [(full, c)] =>
    if k.takesValue c then
      match value, next? with
      | _ :: value, _ => return ([(c, String.ofList value)], false)
      | [], some value => return ([(c, value)], true)
      | [], none => throw ("option '--" ++ full ++ "' requires an argument")
    else if value.isEmpty then return ([(c, "")], false)
    else throw ("option '--" ++ full ++ "' doesn't allow an argument")
  | [] => throw ("unrecognized option '--" ++ text ++ "'")
  | several =>
    throw ("option " ++ shown ++ " is ambiguous; possibilities:" ++
      String.join (several.map fun known => " '--" ++ known.1 ++ "'"))

def read (k : Known) : (fuel : Nat) → List String → Except String (Given × List String)
  | 0, args => .ok ([], args)
  | _ + 1, [] => .ok ([], [])
  | fuel + 1, arg :: rest => do
    match arg.toList with
    | ['-', '-'] => return ([], rest)
    | '-' :: '-' :: name => do
      let (given, usesNext) ← readName k rest.head? (String.ofList name)
      let (more, others) ← read k fuel (if usesNext then rest.drop 1 else rest)
      return (given ++ more, others)
    | '-' :: c :: letters => do
      let (given, usesNext) ← readLetters k rest.head? (c :: letters)
      let (more, others) ← read k fuel (if usesNext then rest.drop 1 else rest)
      return (given ++ more, others)
    | _ =>
      if k.anywhere then
        let (given, others) ← read k fuel rest
        return (given, arg :: others)
      else return ([], arg :: rest)

end Known

def options (letters : String) (names : List (String × Char)) (args : List String)
    (failure : Nat) : Work (Given × List String) :=
  match (Known.mk letters.toList names true).read (args.length + 1) args with
  | .ok result => return result
  | .error text => misused failure text

namespace Given

def has (g : Given) (c : Char) : Bool := g.any (·.1 = c)

def value? (g : Given) (c : Char) : Option String :=
  (g.reverse.find? (·.1 = c)).map Prod.snd

end Given

end Work

end DeclBundle.Shell
