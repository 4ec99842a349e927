namespace DeclBundle

inductive CleanPolicy
  | outDir
  | bundle
  | none
  deriving DecidableEq, Repr, Inhabited

namespace CleanPolicy

def text : CleanPolicy → String
  | outDir => "out-dir"
  | bundle => "bundle"
  | none => "none"

def ofName? (name : String) : Option CleanPolicy :=
  [outDir, bundle, none].find? (·.text = name)

def ofText? (text : String) : Option CleanPolicy :=
  match String.ofList (text.toList.map Char.toLower) with
  | "out-dir" | "outdir" | "all" => some outDir
  | "bundle" => some bundle
  | "none" | "off" => some none
  | _ => Option.none

def unknownMessage (text : String) : String :=
  "unknown clean policy '" ++ text ++ "', expected 'out-dir', 'bundle' or 'none'"

end CleanPolicy

end DeclBundle
