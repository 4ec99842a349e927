import DeclBundle.Config
import DeclBundle.Json

namespace DeclBundle

open Json

def Json.field? (fields : List (String × Json)) (key : String) : Option Json :=
  fields.lookup key

def Json.text? : Json → Option String
  | string text => some text
  | _ => none

def Json.texts? : Json → Option (List String)
  | array items => items.mapM text?
  | _ => none

def Json.nullableText? : Json → Option (Option String)
  | null => some none
  | value => value.text?.map some

namespace Options

def ofJson? : Json → Option Options
  | object fields => do
    let inDir ← (← field? fields "in_dir").text?
    let outDir ← (← field? fields "out_dir").text?
    let name ← ((field? fields "out_file_name").getD null).nullableText?
    return ⟨⟨inDir⟩, ⟨outDir⟩, name⟩
  | array [inDir, outDir] => do return ⟨⟨← inDir.text?⟩, ⟨← outDir.text?⟩, none⟩
  | array [inDir, outDir, name] => do
    return ⟨⟨← inDir.text?⟩, ⟨← outDir.text?⟩, ← name.nullableText?⟩
  | _ => none

def toJson (o : Options) : Json :=
  object ([("in_dir", string o.inDir.text), ("out_dir", string o.outDir.text)] ++
    (o.outFileName.map fun name => ("out_file_name", string name)).toList)

end Options

namespace CompilerSettings

def ofJson? : Json → Option CompilerSettings
  | object fields => do
    guard (fields.all fun (key, _) => key = "program" || key = "args")
    let program ← ((field? fields "program").getD (string default.program)).text?
    let args ← ((field? fields "args").getD (strings default.args)).texts?
    return ⟨program, args⟩
  | array [] => some default
  | array [program] => do return ⟨← program.text?, default.args⟩
  | array [program, args] => do return ⟨← program.text?, ← args.texts?⟩
  | _ => none

def toJson (s : CompilerSettings) : Json :=
  object [("program", string s.program), ("args", strings s.args)]

end CompilerSettings

namespace CleanPolicy

def ofJson? : Json → Option CleanPolicy
  | string name => ofName? name
  | object [(name, null)] => ofName? name
  | _ => Option.none

def toJson (policy : CleanPolicy) : Json :=
  string policy.text

end CleanPolicy

end DeclBundle
