import DeclBundle.FileSystem.Walk
import DeclBundle.Shell.Bytes
import DeclBundle.Shell.Pattern

namespace DeclBundle.Shell

inductive Atom
  | char (quoted : Bool) (c : Char)
  | loose (c : Char)
  | mark
  | cut
  deriving DecidableEq

namespace Atom

def letter? : Atom → Option Letter
  | char quoted c => some ⟨quoted, c⟩
  | loose c => some ⟨false, c⟩
  | _ => none

def loosened : Atom → Atom
  | char false c => loose c
  | a => a

def ofText (quoted : Bool) (text : String) : List Atom :=
  text.toList.map fun c => if quoted then .char true c else .loose c

end Atom

namespace Field

def joined (atoms : List Atom) : String :=
  String.ofList (atoms.filterMap fun a =>
    if a = .cut then some ' ' else a.letter?.map Letter.char)

def letters (atoms : List Atom) : List Letter :=
  atoms.filterMap fun a => if a = .cut then some ⟨false, ' '⟩ else a.letter?

inductive Before
  | fresh
  | blank
  | inField (letters : List Letter)

def isBlank (c : Char) : Bool := c = ' ' || c = '\t' || c = '\n'

def extend (b : Before) (added : List Letter) : Before :=
  match b with
  | .inField letters => .inField (added ++ letters)
  | _ => .inField added

def close (b : Before) : List (List Letter) :=
  match b with
  | .inField letters => [letters.reverse]
  | _ => []

def split (separators : List Char) : Before → List Atom → List (List Letter)
  | b, [] => close b
  | b, .char quoted c :: rest => split separators (extend b [⟨quoted, c⟩]) rest
  | b, .mark :: rest => split separators (extend b []) rest
  | b, .cut :: rest => close b ++ split separators .fresh rest
  | b, .loose c :: rest =>
    if !separators.contains c then split separators (extend b [⟨false, c⟩]) rest
    else if isBlank c then
      match b with
      | .inField _ => close b ++ split separators .blank rest
      | b => split separators b rest
    else
      match b with
      | .inField _ => close b ++ split separators .fresh rest
      | .blank => split separators .fresh rest
      | .fresh => [] :: split separators .fresh rest

def text (letters : List Letter) : String := String.ofList (letters.map Letter.char)

def looksLikePattern (letters : List Letter) : Bool :=
  letters.any fun l => !l.quoted && (l.char = '*' || l.char = '?' || l.char = '[')

def segments (letters : List Letter) : List (List Letter) :=
  let (last, found) := letters.foldl (fun (segment, found) l =>
    if l.char = '/' then ([], segment.reverse :: found) else (l :: segment, found))
    (([] : List Letter), ([] : List (List Letter)))
  (last.reverse :: found).reverse

def matching (fs : FileSystem) (directory : String) (letters : List Letter) : List String :=
  let pattern := Pattern.ofLetters (Pattern.unescape letters)
  match fs.find true (pathOf (if directory = "" then "." else directory)) with
  | .ok (l, .directory _) =>
    let names := "." :: ".." :: (fs.children l).map nameOf
    let hidden := letters.head?.any (·.char = '.')
    names.filter fun n => (n.toList.head? ≠ some '.' || hidden) && pattern.accepts n.toList
  | _ => []

def paths (fs : FileSystem) : (base : String) → List (List Letter) → List String
  | base, [] => [base]
  | base, s :: rest =>
    if looksLikePattern s then
      (matching fs base s).flatMap fun n =>
        if rest.isEmpty then [base ++ n]
        else if fs.isDirectory (pathOf (base ++ n)) then paths fs (base ++ n ++ "/") rest
        else []
    else
      let path := base ++ text (Pattern.unescape s)
      if rest.isEmpty then
        if s.isEmpty || (fs.find false (pathOf path)).toBool then [path] else []
      else paths fs (path ++ "/") rest

def expand (fs : FileSystem) (letters : List Letter) : List String :=
  if looksLikePattern letters then
    match paths fs "" (segments letters) with
    | [] => [text letters]
    | found => found.mergeSort fun a b => decide (a ≤ b)
  else [text letters]

end Field

end DeclBundle.Shell
