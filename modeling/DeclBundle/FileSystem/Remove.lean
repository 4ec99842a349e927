import DeclBundle.FileSystem.Resolve

namespace DeclBundle

inductive Removal
  | removed
  | alreadyGone
  | failed (error : IoError)
  deriving DecidableEq, Repr

namespace Removal

def error? : Removal → Option IoError
  | failed e => some e
  | _ => none

def isFailed (r : Removal) : Bool :=
  r.error?.isSome

end Removal

namespace FileSystem

def removeDirectory (fs : FileSystem) (p : Path) : Except Errno FileSystem := do
  let (steps, ending) := ending p
  match ← fs.resolve true maxLinks (p.start fs.cwd) steps with
  | .absent _ => throw .notFound
  | .present directory _ =>
    match ending with
    | .root => throw .busy
    | .dot => throw .invalid
    | .dots => throw .notEmpty
    | .name n _ =>
      let l := directory ++ [n]
      match fs.get? l with
      | none => throw (missing n)
      | some (.directory _) => if fs.isOccupied l then throw .notEmpty else return fs.erase l
      | some _ => throw .notDirectory

/-- A directory is emptied first. If its own path leads nowhere after that, it counts as removed. -/
def remove (fs : FileSystem) (p : Path) : FileSystem × Removal :=
  match fs.find false p with
  | .error e => (fs, if e.isNotFound then .alreadyGone else .failed e)
  | .ok (l, .directory _) =>
    let emptied := fs.clear l
    match emptied.removeDirectory p with
    | .ok fs => (fs, .removed)
    | .error number => (emptied, if number = .notFound then .removed else .failed (.os number))
  | .ok (l, _) => (fs.erase l, .removed)

end FileSystem

end DeclBundle
