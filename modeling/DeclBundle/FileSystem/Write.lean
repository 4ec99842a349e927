import DeclBundle.FileSystem.Resolve

/-!
Making directories, links and files. An operation that can fail half-way gives the tree it leaves
together with its outcome.
-/

namespace DeclBundle.FileSystem

def fileMode : Nat := 0o644
def directoryMode : Nat := 0o755

abbrev Outcome := FileSystem × Except IoError Unit

def entrance (fs : FileSystem) (p : Path) : Except IoError (Location × Ending) := do
  accept p
  let (steps, ending) := ending p
  match ← (fs.resolve true maxLinks (p.start fs.cwd) steps).mapError .os with
  | .present directory _ => return (directory, ending)
  | .absent _ => throw (.os .notFound)

def makeDirectory (fs : FileSystem) (p : Path) : Except IoError FileSystem := do
  match ← fs.entrance p with
  -- a slash after the name of a new directory does not matter
  | (directory, .name n _) =>
    if !n.isStorable then throw (.os .nameTooLong)
    else if (fs.get? (directory ++ [n])).isSome then throw (.os .alreadyExists)
    else return fs.put (directory ++ [n]) (.directory directoryMode)
  | _ => throw (.os .alreadyExists)

def settle (fs : FileSystem) (p : Path) : Outcome :=
  match fs.makeDirectory p with
  | .ok fs => (fs, .ok ())
  | .error e => (fs, if fs.isDirectory p then .ok () else .error e)

def makeDirectoriesUpTo : (fuel : Nat) → Path → FileSystem → Outcome
  | 0, _, fs => (fs, .error (.os .notFound))
  | fuel + 1, p, fs =>
    if p.components = [] then (fs, .ok ())
    else
      match fs.makeDirectory p, p.parent with
      | .error (.os .notFound), some parent =>
        match makeDirectoriesUpTo fuel parent fs with
        | (fs, .ok ()) => fs.settle p
        | failed => failed
      | _, _ => fs.settle p

def makeDirectories (fs : FileSystem) (p : Path) : Outcome :=
  makeDirectoriesUpTo (p.components.length + 1) p fs

def write (fs : FileSystem) (p : Path) (content : ByteArray) : Except IoError FileSystem := do
  match ← fs.locate true p with
  | .present l (.file _ mode) => return fs.put l (.file content mode)
  | .present _ _ => throw (.os .isDirectory)
  | .absent l => return fs.put l (.file content fileMode)

def setMode (fs : FileSystem) (p : Path) (mode : Nat) : Except IoError FileSystem := do
  match ← fs.find true p with
  | (l, .file content _) => return fs.put l (.file content mode)
  | (l, .directory _) => return fs.put l (.directory mode)
  | _ => return fs

def makeLink (fs : FileSystem) (p : Path) (target : String) : Except IoError FileSystem := do
  match ← fs.locate false p with
  | .present _ _ => throw (.os .alreadyExists)
  | .absent l => return fs.put l (.link target)

def modeFor (fs : FileSystem) (p : Path) : Nat :=
  match fs.find true p with
  | .ok (_, .file _ mode) => mode
  | _ => fileMode

def temporaryNames : List Name :=
  (List.range 200).filterMap fun k =>
    Name.ofString? (".dtsb-" ++ String.ofList (List.replicate k 'x') ++ ".tmp")

def temporary? (fs : FileSystem) (directory : Location) : Option Location :=
  (temporaryNames.map fun n => directory ++ [n]).find? fun l => (fs.get? l).isNone

def slot (fs : FileSystem) (p : Path) : Except IoError Location := do
  match ← fs.entrance p with
  | (directory, .name n slash) =>
    if !n.isStorable then throw (.os .nameTooLong)
    else if slash then throw (.os .notDirectory)
    else return directory ++ [n]
  | _ => throw (.os .busy)

def moveOver (fs : FileSystem) (l : Location) (e : Entry) (p : Path) :
    Except IoError FileSystem := do
  let place ← (fs.slot p).mapError fun e => if e = .nulByte then .os .invalid else e
  if fs.isDirectoryAt place then throw (.os .isDirectory)
  return (fs.erase l).put place e

/-- Writes a file beside its place and moves it there when it is complete, so that nobody sees a
part of it. Missing directories are made first, and a failure leaves no temporary file. -/
def replace (fs : FileSystem) (p : Path) (text : String) : Outcome :=
  let directory := p.directory
  match fs.makeDirectories directory with
  | (fs, .error e) => (fs, .error e)
  | (fs, .ok ()) =>
    match fs.find true directory with
    | .error e => (fs, .error e)
    | .ok (place, _) =>
      match fs.temporary? place with
      | none => (fs, .error (.os .alreadyExists))
      | some temporary =>
        let entry := Entry.file text.toUTF8 (fs.modeFor p)
        let staged := fs.put temporary entry
        match staged.moveOver temporary entry p with
        | .ok done => (done, .ok ())
        | .error e => (staged.erase temporary, .error e)

end DeclBundle.FileSystem
