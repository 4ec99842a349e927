import DeclBundle.Compiler.Command
import DeclBundle.Pass.Error
import DeclBundle.Snapshot
import DeclBundle.Text.Utf8

/-!
Compilers. To a pass a compiler is anything that changes the tree and gives some text, or an error.
The one that is configured is a program, which is started with the sources as its last arguments.
-/

namespace DeclBundle

structure Exit where
  ending : Termination
  out : ByteArray
  err : ByteArray

abbrev Launcher := (program : String) → (args : List String) → FileSystem →
  FileSystem × Except IoError Exit

abbrev Compiler := (inDir outDir : Location) → FileSystem → FileSystem × Except PassError String

def Exit.text (exit : Exit) : Except PassError String :=
  let out := Text.lossy exit.out
  let err := Text.lossy exit.err
  if exit.ending.isSuccess then .ok (if out = "" then err else out)
  else .error (.compile exit.ending (out ++ err))

def CompilerSettings.compiler (settings : CompilerSettings) (launch : Launcher) (s : Schedule) :
    Compiler := fun inDir outDir fs =>
  match fs.sources s inDir.path with
  | .error e => (fs, .error (.list inDir.path e))
  | .ok [] => (fs, .error (.noSources inDir.path))
  | .ok sources =>
    match launch settings.program (settings.arguments outDir.path sources) fs with
    | (fs, .error e) => (fs, .error (.spawn settings.program e))
    | (fs, .ok exit) => (fs, exit.text)

end DeclBundle
