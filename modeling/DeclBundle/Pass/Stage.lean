import DeclBundle.Compiler
import DeclBundle.FileSystem.Write
import DeclBundle.Pass.Context

namespace DeclBundle

inductive Stage
  | clean
  | snapshotBefore
  | compile
  | merge
  | snapshotAfter
  | prune
  deriving DecidableEq, Repr

namespace Stage

def all : List Stage :=
  [clean, snapshotBefore, compile, merge, snapshotAfter, prune]

def name : Stage → String
  | clean => "clean"
  | snapshotBefore => "snapshot-before"
  | compile => "compile"
  | merge => "merge"
  | snapshotAfter => "snapshot-after"
  | prune => "prune"

def description : Stage → String
  | clean => "Remove stale output"
  | snapshotBefore => "Record the output directory before compiling"
  | compile => "Emit declaration files with the compiler"
  | merge => "Merge declarations and write the bundle"
  | snapshotAfter => "Record the output directory after writing the bundle"
  | prune => "Remove intermediate declaration files"

def title (s : Stage) : String :=
  s.name ++ ": " ++ s.description

open Pass

def warn (s : Stage) (message : String) (path : Option Path) : Pass Unit :=
  note ⟨.warning, s.name, message, path⟩

def stale? (c : Config) : Option Path :=
  match c.clean with
  | .outDir => some c.outDir.path
  | .bundle => some c.bundlePath
  | .none => none

def runClean : Pass Unit := do
  match stale? (← config) with
  | none => return
  | some path =>
    let (fs, removal) := (← files).remove path
    setFiles fs
    match removal.error? with
    | some e => clean.warn ("could not remove stale output: " ++ e.message) (some path)
    | none => pure ()
    updateContext fun c => { c with preClean := some removal }

def runSnapshotBefore (s : Schedule) : Pass Unit := do
  let root := (← config).outDir.path
  let paths ← orFail (.snapshot root) ((← files).snapshotOrEmpty s root)
  updateContext fun c => { c with before := some paths }

def runSnapshotAfter (s : Schedule) : Pass Unit := do
  let root := (← config).outDir.path
  let paths ← orFail (.snapshot root) ((← files).snapshot s root)
  updateContext fun c => { c with after := some paths }

def runCompile (compiler : Compiler) : Pass Unit := do
  let c ← config
  let output ← onFiles id (compiler c.inDir c.outDir)
  updateContext fun c => { c with compilerOutput := some output }

def listDeclarations (s : Schedule) (fs : FileSystem) (root : Path) : Except IoError (List Path) :=
  match fs.find true root with
  | .error e => if e.isNotFound then .ok [] else .error e
  | .ok _ => fs.declarations s root

/-- Reads files in the order given by their numbers, and puts each text into the slot of its
number. The first file that cannot be read ends this. -/
def readSlots (fs : FileSystem) (paths : List Path) :
    (order : List Nat) → List (Option String) → Except PassError (List (Option String))
  | [], slots => .ok slots
  | i :: order, slots =>
    match paths[i]? with
    | none => readSlots fs paths order slots
    | some p =>
      match fs.read p with
      | .error e => .error (.read p e)
      | .ok text => readSlots fs paths order (slots.set i (some text))

def readAll (s : Schedule) (fs : FileSystem) (paths : List Path) :
    Except PassError (List String) := do
  let slots ← readSlots fs paths (s.reads paths.length) (List.replicate paths.length none)
  return slots.filterMap id

/-- A bundle that was there before the compiler ran is not merged again. -/
def inputs (c : Context) (found : List Path) : List Path :=
  let bundle := c.config.bundlePath
  if c.before.any (·.contains bundle) then found.filter (!·.same bundle) else found

def runMerge (s : Schedule) : Pass Unit := do
  let c ← context
  let root := c.config.outDir.path
  let path := c.config.bundlePath
  let found ← orFail (.list root) (listDeclarations s (← files) root)
  let paths := inputs c found
  if paths.isEmpty then
    merge.warn "no declaration files were emitted; the bundle is empty" none
  let texts ← orFail id (readAll s (← files) paths)
  let content := Declaration.merge texts
  onFiles (.write path) (·.replace path content)
  note ⟨.info, merge.name,
    "bundle written from " ++ toString paths.length ++ " declaration files", some path⟩
  updateContext fun c => { c with declarations := paths, bundle := some ⟨path, content⟩ }

def removeAll : List Path → FileSystem → FileSystem × List (Path × Removal)
  | [], fs => (fs, [])
  | p :: rest, fs =>
    let (fs, removal) := fs.remove p
    let (fs, others) := removeAll rest fs
    (fs, (p, removal) :: others)

def placeRemoval (r : Path × Removal) : List (Path × Removal) → List (Path × Removal)
  | [] => [r]
  | q :: rest =>
    if (compare r.1 q.1).isLE then r :: q :: rest else q :: placeRemoval r rest

def sortRemovals (removals : List (Path × Removal)) : List (Path × Removal) :=
  removals.foldr placeRemoval []

def arrange (paths : List Path) (order : List Nat) : List Path :=
  order.filterMap (paths[·]?)

def runPrune (s : Schedule) : Pass Unit := do
  let c ← context
  updateContext fun c => { c with before := none, after := none }
  match c.before, c.after with
  | some before, some after =>
    let roots := (PathSet.deletionSet before after c.config.bundlePath).roots
    let (fs, done) := removeAll (arrange roots.toList (s.removals roots.size)) (← files)
    setFiles fs
    let removals := sortRemovals done
    removals.forM fun (path, removal) =>
      match removal.error? with
      | some e => prune.warn ("could not remove: " ++ e.message) (some path)
      | none => pure ()
    updateContext fun c =>
      { c with before := some before, after := some after, removals := removals }
  | _, _ => throw (.other "prune requires both directory snapshots")

def run (s : Schedule) (compiler : Compiler) : Stage → Pass Unit
  | clean => runClean
  | snapshotBefore => runSnapshotBefore s
  | compile => runCompile compiler
  | merge => runMerge s
  | snapshotAfter => runSnapshotAfter s
  | prune => runPrune s

end Stage

end DeclBundle
