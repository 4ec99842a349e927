import DeclBundle.FileSystem.Resolve
import DeclBundle.Schedule

namespace DeclBundle

namespace FileSystem

def children (fs : FileSystem) (l : Location) : List Name :=
  fs.table.filterMap fun (k, _) => if k.dropLast = l then k.getLast? else none

def height (fs : FileSystem) : Nat :=
  (fs.table.map (·.1.length)).foldl max 0

/-- All entries below a place down to a depth, where `p` leads to the place. A name that is not
kept hides all that is below it. A directory is opened by its path, and so may be out of reach. -/
def descend (fs : FileSystem) (s : Schedule) (keep : Name → Bool) :
    (depth : Nat) → Location → Path → Except IoError (List (Path × Entry))
  | 0, _, _ => return []
  | depth + 1, l, p => do
    let found ← (s.listing (fs.children l)).mapM fun n =>
      match fs.get? (l ++ [n]) with
      | none => return []
      | some e => do
        let path := p.join ⟨n.text⟩
        if !keep n then return []
        else if e.isDirectory then
          (accept path).mapError (.walk path)
          return (path, e) :: (← descend fs s keep depth (l ++ [n]) path)
        else return [(path, e)]
    return found.flatten

def walk (fs : FileSystem) (s : Schedule) (keep : Name → Bool) (p : Path) :
    Except IoError (List (Path × Entry)) := do
  let (l, e) ← (fs.find true p).mapError (.walk p)
  -- nothing is below a file
  if e.isDirectory then fs.descend s keep fs.height l p else return []

end FileSystem

end DeclBundle
