import DeclBundle.IoError
import DeclBundle.Signal
import DeclBundle.Text.Blank

namespace DeclBundle

inductive PassError
  | spawn (program : String) (source : IoError)
  | compile (ending : Termination) (output : String)
  | noSources (inDir : Path)
  | list (path : Path) (source : IoError)
  | snapshot (path : Path) (source : IoError)
  | read (path : Path) (source : IoError)
  | write (path : Path) (source : IoError)
  | other (message : String)
  deriving DecidableEq, Repr

namespace PassError

def tail (output : String) : String :=
  match Text.trim output.toList with
  | [] => ""
  | text => ":\n" ++ String.ofList text

def message : PassError → String
  | spawn program _ => "failed to start declaration compiler '" ++ program ++ "'"
  | compile ending output =>
    "declaration compiler failed (" ++ ending.text ++ ")" ++ tail output
  | noSources inDir => "no TypeScript sources found in '" ++ inDir.text ++ "'"
  | list path _ => "failed to list '" ++ path.text ++ "'"
  | snapshot path _ => "failed to snapshot '" ++ path.text ++ "'"
  | read path _ => "failed to read declaration file '" ++ path.text ++ "'"
  | write path _ => "failed to write bundle '" ++ path.text ++ "'"
  | other message => message

def code : PassError → Option String
  | spawn _ _ => some "dtsb::compiler_spawn"
  | compile _ _ => some "dtsb::compiler_failed"
  | noSources _ => some "dtsb::no_sources"
  | list _ _ => some "dtsb::list_failed"
  | snapshot _ _ => some "dtsb::snapshot_failed"
  | read _ _ => some "dtsb::read_failed"
  | write _ _ => some "dtsb::write_failed"
  | other _ => none

def help : PassError → Option String
  | spawn _ _ =>
    some ("install TypeScript (e.g. \x60npm i -D typescript\x60) " ++
      "or set [compiler] program in dtsb.toml")
  | _ => none

def source : PassError → Option IoError
  | spawn _ source => some source
  | list _ source => some source
  | snapshot _ source => some source
  | read _ source => some source
  | write _ source => some source
  | _ => none

def chain (e : PassError) : List String :=
  e.message :: (e.source.map IoError.chain).getD []

end PassError

end DeclBundle
