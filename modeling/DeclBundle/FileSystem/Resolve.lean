import DeclBundle.FileSystem.Basic

/-!
What a path leads to. A path is read from left to right, each step from a directory: `.` stays,
`..` goes up, and a name goes down. A link on the way is replaced by the steps of its target, at
most forty times; a link at the end only if it is to be followed.
-/

namespace DeclBundle

inductive Step
  | here
  | up
  | down (n : Name)
  deriving DecidableEq, Repr

namespace Path

def step (segment : String) : Step :=
  if segment = ".." then .up
  else
    match Name.ofString? segment with
    | some n => .down n
    | none => .here

def steps (p : Path) : List Step :=
  p.split.2.map step

def start (p : Path) (cwd : Location) : Location :=
  if p.isAbsolute then [] else cwd

end Path

namespace FileSystem

inductive Target
  | present (l : Location) (e : Entry)
  | absent (l : Location)

inductive Reach
  | target (t : Target)
  | link (l : Location) (text : String) (rest : List Step)
  | failed (number : Errno)

def missing (n : Name) : Errno :=
  if n.isStorable then .notFound else .nameTooLong

def advance (fs : FileSystem) (l : Location) : List Step → Reach
  | [] =>
    match fs.get? l with
    | some e => .target (.present l e)
    | none => .failed .notFound
  | step :: rest =>
    match fs.get? l with
    | none => .failed .notFound
    | some (.directory _) =>
      match step with
      | .here => advance fs l rest
      | .up => advance fs l.dropLast rest
      | .down n =>
        match fs.get? (l ++ [n]) with
        | none =>
          if rest = [] ∧ n.isStorable then .target (.absent (l ++ [n])) else .failed (missing n)
        | some (.link text) => .link (l ++ [n]) text rest
        | some _ => advance fs (l ++ [n]) rest
    | some _ => .failed .notDirectory

def maxLinks : Nat := 40

def resolve (fs : FileSystem) (follow : Bool) :
    (links : Nat) → Location → List Step → Except Errno Target
  | links, l, steps =>
    match fs.advance l steps with
    | .target t => .ok t
    | .failed number => .error number
    | .link place text rest =>
      if rest = [] ∧ !follow then .ok (.present place (.link text))
      else
        match links with
        | 0 => .error .linkLoop
        | links + 1 =>
          let target : Path := ⟨text⟩
          fs.resolve follow links (target.start place.dropLast) (target.steps ++ rest)

def maxPathSize : Nat := 4095

/-- Texts the system takes for a path: not empty, not too long, and free of NUL. -/
def accept (p : Path) : Except IoError Unit :=
  if p.text.toList.contains '\x00' then .error .nulByte
  else if p.text = "" then .error (.os .notFound)
  else if p.text.utf8ByteSize > maxPathSize then .error (.os .nameTooLong)
  else .ok ()

def locate (fs : FileSystem) (follow : Bool) (p : Path) : Except IoError Target := do
  accept p
  (fs.resolve follow maxLinks (p.start fs.cwd) p.steps).mapError .os

def find (fs : FileSystem) (follow : Bool) (p : Path) : Except IoError (Location × Entry) := do
  match ← fs.locate follow p with
  | .present l e => return (l, e)
  | .absent _ => throw (.os .notFound)

def exists? (fs : FileSystem) (p : Path) : Bool :=
  (fs.find true p).toBool

def isDirectory (fs : FileSystem) (p : Path) : Bool :=
  match fs.find true p with
  | .ok (_, .directory _) => true
  | _ => false

def isFile (fs : FileSystem) (p : Path) : Bool :=
  match fs.find true p with
  | .ok (_, .file _ _) => true
  | _ => false

def read (fs : FileSystem) (p : Path) : Except IoError String := do
  match ← fs.find true p with
  | (_, .file content _) =>
    match String.fromUTF8? content with
    | some text => return text
    | none => throw .invalidUtf8
  | _ => throw (.os .isDirectory)

inductive Ending
  | root
  | dot
  | dots
  | name (n : Name) (slash : Bool)

def ending (p : Path) : List Step × Ending :=
  let body := p.split.2
  let trimmed := (body.reverse.dropWhile (· = "")).reverse
  match trimmed.getLast? with
  | none => ([], if p.split.1 = .current then .dot else .root)
  | some last =>
    (trimmed.dropLast.map Path.step ++ [.here],
      match Path.step last with
      | .here => .dot
      | .up => .dots
      | .down n => .name n (trimmed.length < body.length))

end FileSystem

end DeclBundle
