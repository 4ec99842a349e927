import DeclBundle.Manifest

/-!
The arguments of the command line. Options may be given once, as `--name value`, `--name=value` or,
where there is a short form, `-cvalue`; a value that looks like an option has to be given with `=`.
-/

namespace DeclBundle.CommandLine

structure Arguments where
  config : Option Path
  overrides : Overrides
  json : Bool
  deriving DecidableEq, Repr

def Arguments.none : Arguments :=
  ⟨Option.none, .empty, false⟩

inductive Invocation
  | help
  | version
  | completions (shell : String)
  | bundle (a : Arguments)
  | check (a : Arguments)
  deriving DecidableEq, Repr

def shells : List String :=
  ["bash", "elvish", "fish", "powershell", "zsh"]

namespace Arguments

def once {α : Type} (current : Option α) (value : α) : Option (Option α) :=
  match current with
  | Option.none => some (some value)
  | some _ => Option.none

def path? (text : String) : Option Path :=
  if text = "" then Option.none else some ⟨text⟩

def set (a : Arguments) (name value : String) : Option Arguments :=
  let o := a.overrides
  match name with
  | "config" => do return { a with config := ← once a.config (← path? value) }
  | "in-dir" => do
    return { a with overrides := { o with inDir := ← once o.inDir (← path? value) } }
  | "out-dir" => do
    return { a with overrides := { o with outDir := ← once o.outDir (← path? value) } }
  | "out-file-name" => do
    return { a with overrides := { o with outFileName := ← once o.outFileName value } }
  | "clean" => do
    return { a with overrides := { o with clean := ← once o.clean (← CleanPolicy.ofText? value) } }
  | "tsc" => do return { a with overrides := { o with program := ← once o.program value } }
  | _ => Option.none

def setJson (a : Arguments) : Option Arguments :=
  if a.json then Option.none else some { a with json := true }

end Arguments

inductive Token
  | stop
  | long (name : String) (value : Option String)
  | short (letters : List Char)
  | word (text : String)

def tokenOf (text : String) : Token :=
  match text.toList with
  | ['-', '-'] => .stop
  | '-' :: '-' :: body =>
    let name := String.ofList (body.takeWhile (· ≠ '='))
    match body.dropWhile (· ≠ '=') with
    | [] => .long name none
    | _ :: value => .long name (some (String.ofList value))
  | '-' :: c :: letters => .short (c :: letters)
  | _ => .word text

def isWord (text : String) : Bool :=
  match tokenOf text with
  | .word _ => true
  | _ => false

inductive Letters
  | nothing
  | help
  | config (value : Option String)

def readLetters : List Char → Option Letters
  | [] => some .nothing
  | 'v' :: rest => readLetters rest
  | 'h' :: _ => some .help
  | 'c' :: [] => some (.config none)
  | 'c' :: '=' :: value => some (.config (some (String.ofList value)))
  | 'c' :: value => some (.config (some (String.ofList value)))
  | _ => none

def readArguments (make : Arguments → Invocation) : Arguments → List String → Option Invocation
  | a, [] => some (make a)
  | a, text :: rest =>
    match tokenOf text with
    | .stop => if rest = [] then some (make a) else none
    | .word _ => none
    | .long "verbose" none => readArguments make a rest
    | .long "help" none => some .help
    | .long "json" none => do readArguments make (← a.setJson) rest
    | .long name (some value) => do readArguments make (← a.set name value) rest
    | .long name none => withValue name a rest
    | .short letters =>
      match readLetters letters with
      | none => none
      | some .nothing => readArguments make a rest
      | some .help => some .help
      | some (.config (some value)) => do readArguments make (← a.set "config" value) rest
      | some (.config none) => withValue "config" a rest
where
  withValue (name : String) (a : Arguments) : List String → Option Invocation
    | [] => none
    | value :: rest =>
      if isWord value then do readArguments make (← a.set name value) rest else none

def readShell : Option String → List String → Option Invocation
  | shell, [] => shell.map .completions
  | shell, text :: rest =>
    match tokenOf text with
    | .stop =>
      match shell, rest with
      | some shell, [] => some (.completions shell)
      | none, [name] => if name ∈ shells then some (.completions name) else none
      | _, _ => none
    | .word name => if shell.isNone && name ∈ shells then readShell (some name) rest else none
    | .long "verbose" none => readShell shell rest
    | .long "help" none => some .help
    | .short letters =>
      match readLetters letters with
      | some .nothing => readShell shell rest
      | some .help => some .help
      | _ => none
    | _ => none

def readLeading : List Char → Option (Option Invocation)
  | [] => some none
  | 'v' :: rest => readLeading rest
  | 'h' :: _ => some (some .help)
  | 'V' :: _ => some (some .version)
  | _ => none

def read : List String → Option Invocation
  | [] => none
  | text :: rest =>
    match tokenOf text with
    | .word "bundle" => readArguments .bundle .none rest
    | .word "check" => readArguments .check .none rest
    | .word "completions" => readShell none rest
    | .word "help" => some .help
    | .long "verbose" none => read rest
    | .long "help" none => some .help
    | .long "version" none => some .version
    | .short letters =>
      match readLeading letters with
      | none => none
      | some none => read rest
      | some (some invocation) => some invocation
    | _ => none

end DeclBundle.CommandLine
