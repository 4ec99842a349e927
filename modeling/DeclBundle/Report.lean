import DeclBundle.Json
import DeclBundle.Path
import DeclBundle.Text.Blank

namespace DeclBundle

structure Printed where
  out : String
  err : String
  deriving DecidableEq, Repr

structure BundleReport where
  configPath : Option Path
  bundlePath : Path
  declarations : List Path
  removed : List Path
  failed : List (Path × String)
  warnings : List String
  compilerOutput : Option String
  deriving DecidableEq, Repr

structure CheckReport where
  configPath : Option Path
  inDir : Path
  outDir : Path
  bundlePath : Path
  clean : String
  command : String
  sourceCount : Option Nat
  phases : List String
  warnings : List String
  deriving DecidableEq, Repr

namespace Report

open Json

def unlines (lines : List String) : String :=
  String.join (lines.map (· ++ "\n"))

def warningLines (warnings : List String) : String :=
  unlines (warnings.map ("warning: " ++ ·))

def listing (heading : String) (items : List String) : List String :=
  if items.isEmpty then []
  else "" :: (heading ++ " (" ++ toString items.length ++ "):") :: items

def pathJson (p : Path) : Json :=
  string p.text

def printJson (value : Json) : Printed :=
  ⟨value.pretty ++ "\n", ""⟩

end Report

namespace BundleReport

open Json Report

def toJson (r : BundleReport) : Json :=
  object [
    ("config_path", orNull (r.configPath.map pathJson)),
    ("bundle_path", pathJson r.bundlePath),
    ("declarations", array (r.declarations.map pathJson)),
    ("removed", array (r.removed.map pathJson)),
    ("failed", array (r.failed.map fun (path, error) =>
      object [("path", pathJson path), ("error", string error)])),
    ("warnings", strings r.warnings),
    ("compiler_output", orNull (r.compilerOutput.map string))]

def lines (r : BundleReport) : List String :=
  let count := r.declarations.length
  (match r.compilerOutput with
    | some output => [String.ofList (Text.trimEnd output.toList), ""]
    | none => []) ++
  ["✓ Bundled " ++ toString count ++ " declaration file" ++ (if count = 1 then "" else "s"),
    "  + " ++ r.bundlePath.text] ++
  listing "Removed" (r.removed.map fun path => "  - " ++ path.text) ++
  listing "Could not remove" (r.failed.map fun (path, error) => "  " ++ path.text ++ ": " ++ error)

def print (r : BundleReport) : Printed :=
  ⟨unlines r.lines, warningLines r.warnings⟩

end BundleReport

namespace CheckReport

open Json Report

def toJson (r : CheckReport) : Json :=
  object [
    ("config_path", orNull (r.configPath.map pathJson)),
    ("in_dir", pathJson r.inDir),
    ("out_dir", pathJson r.outDir),
    ("bundle_path", pathJson r.bundlePath),
    ("clean", string r.clean),
    ("command", string r.command),
    ("source_count", orNull (r.sourceCount.map fun n => number n)),
    ("phases", strings r.phases),
    ("warnings", strings r.warnings)]

def numbered (items : List String) : List String :=
  items.zipIdx.map fun (item, i) => "  " ++ toString (i + 1) ++ ". " ++ item

def lines (r : CheckReport) : List String :=
  (if r.warnings.isEmpty then [] else [""]) ++
  [match r.configPath with
    | some path => "✓ " ++ path.text ++ " is valid"
    | none => "✓ configuration is valid (no dtsb.toml)",
    "",
    "  sources: " ++ r.inDir.text] ++
  (r.sourceCount.map fun n => "  source files: " ++ toString n).toList ++
  ["  output: " ++ r.outDir.text,
    "  bundle: " ++ r.bundlePath.text,
    "  clean: " ++ r.clean,
    "  compiler: " ++ r.command,
    "",
    "Phases:"] ++
  numbered r.phases

def print (r : CheckReport) : Printed :=
  ⟨unlines r.lines, warningLines r.warnings⟩

end CheckReport

end DeclBundle
