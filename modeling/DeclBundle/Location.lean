import DeclBundle.IoError

/-!
Places in a file tree, as the names that lead to them from the root. `Path.locate` reads a path
from left to right: `.` stays, `..` goes up one name and stays at the root, and no link is looked
at. The absolute form of a path is the text of its location.
-/

namespace DeclBundle

abbrev Location := List Name

namespace Location

def path (l : Location) : Path :=
  ⟨"/" ++ "/".intercalate (l.map Name.text)⟩

def isBelow (l base : Location) : Bool :=
  base.isPrefixOf l && base.length < l.length

def parent (l : Location) : Location :=
  l.dropLast

end Location

namespace Path

def Component.step (l : Location) : Component → Location
  | root => []
  | current => l
  | parent => l.dropLast
  | name n => l ++ [n]

def locate (cwd : Location) (p : Path) : Location :=
  p.components.foldl Component.step cwd

def place (cwd : Location) (p : Path) : Except IoError Location :=
  if p.text = "" then .error .emptyPath else .ok (p.locate cwd)

def absolute (cwd : Location) (p : Path) : Except IoError Path :=
  (p.place cwd).map Location.path

end Path

end DeclBundle
