import DeclBundle.Config
import DeclBundle.FileSystem.Remove
import DeclBundle.Pass.Error
import DeclBundle.PathSet

/-!
What a pass knows so far, and the actions of type `Pass` that it is made of. One that fails leaves
the tree and the context as they are at that moment.
-/

namespace DeclBundle

inductive Severity
  | warning
  | info
  deriving DecidableEq, Repr

def Severity.text : Severity → String
  | warning => "warning"
  | info => "info"

structure Diagnostic where
  severity : Severity
  phase : String
  message : String
  path : Option Path
  deriving DecidableEq, Repr

namespace Diagnostic

def remark (d : Diagnostic) : String :=
  match d.path with
  | some path => d.message ++ " (" ++ path.text ++ ")"
  | none => d.message

def text (d : Diagnostic) : String :=
  d.severity.text ++ ": " ++ d.remark

def isWarning (d : Diagnostic) : Bool :=
  d.severity = .warning

end Diagnostic

structure Bundle where
  path : Path
  content : String
  deriving DecidableEq, Repr

structure Context where
  config : Config
  preClean : Option Removal
  before : Option PathSet
  after : Option PathSet
  compilerOutput : Option String
  declarations : List Path
  bundle : Option Bundle
  removals : List (Path × Removal)
  diagnostics : List Diagnostic

namespace Context

def new (config : Config) : Context :=
  ⟨config, none, none, none, none, [], none, [], []⟩

def note (c : Context) (d : Diagnostic) : Context :=
  { c with diagnostics := c.diagnostics ++ [d] }

def warnings (c : Context) : List Diagnostic :=
  c.diagnostics.filter Diagnostic.isWarning

def removed (c : Context) : List Path :=
  (c.removals.filter fun (_, r) => !r.isFailed).map Prod.fst

def failed (c : Context) : List (Path × IoError) :=
  c.removals.filterMap fun (path, r) => r.error?.map (path, ·)

end Context

inductive Call
  | before (plugin phase : String)
  | phase (name : String)
  | after (plugin phase : String)
  deriving DecidableEq, Repr

structure State where
  files : FileSystem
  context : Context
  calls : List Call

abbrev Pass := ExceptT PassError (StateM State)

namespace Pass

def files : Pass FileSystem := return (← get).files

def setFiles (fs : FileSystem) : Pass Unit :=
  modify fun s => { s with files := fs }

def context : Pass Context := return (← get).context

def updateContext (f : Context → Context) : Pass Unit :=
  modify fun s => { s with context := f s.context }

def config : Pass Config := return (← context).config

def note (d : Diagnostic) : Pass Unit :=
  updateContext (·.note d)

def orFail {ε α : Type} (describe : ε → PassError) : Except ε α → Pass α
  | .ok a => return a
  | .error e => throw (describe e)

def onFiles {ε α : Type} (describe : ε → PassError)
    (operate : FileSystem → FileSystem × Except ε α) : Pass α := do
  let (fs, result) := operate (← files)
  setFiles fs
  orFail describe result

end Pass

end DeclBundle
