import DeclBundle.Declaration
import DeclBundle.FileSystem.Walk
import DeclBundle.PathSet

namespace DeclBundle.FileSystem

def anyName (_ : Name) : Bool := true

def snapshot (fs : FileSystem) (s : Schedule) (root : Path) : Except IoError PathSet := do
  let root ← root.absolute fs.cwd
  let found ← fs.walk s anyName root
  return PathSet.ofList (found.map Prod.fst)

def snapshotOrEmpty (fs : FileSystem) (s : Schedule) (root : Path) : Except IoError PathSet :=
  match fs.find false root with
  | .error e => if e.isNotFound then .ok .empty else .error e
  | .ok _ => fs.snapshot s root

def files (found : List (Path × Entry)) (test : Path → Bool) : List Path :=
  (PathSet.ofList ((found.filter fun (p, e) => e.isFile && test p).map Prod.fst)).toList

def declarations (fs : FileSystem) (s : Schedule) (root : Path) : Except IoError (List Path) := do
  let root ← root.absolute fs.cwd
  return files (← fs.walk s anyName root) Declaration.isDeclaration

def isOwn (n : Name) : Bool :=
  n.text ≠ "node_modules"

def isSource (p : Path) : Bool :=
  p.extension = some "ts"

def sources (fs : FileSystem) (s : Schedule) (root : Path) : Except IoError (List Path) := do
  return files (← fs.walk s isOwn root) isSource

end DeclBundle.FileSystem
