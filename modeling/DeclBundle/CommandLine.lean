import DeclBundle.CommandLine.Arguments
import DeclBundle.Manifest.File
import DeclBundle.Pass.Pipeline
import DeclBundle.Report

namespace DeclBundle

def BundleReport.ofContext (source : Option Path) (c : Context) : BundleReport where
  configPath := source
  bundlePath := c.config.bundlePath
  declarations := c.declarations
  removed := c.removed
  failed := c.failed.map fun (path, e) => (path, e.message)
  warnings := c.warnings.map Diagnostic.remark
  compilerOutput := c.compilerOutput.filter (!Text.allBlank ·)

def CheckReport.countSources (fs : FileSystem) (s : Schedule) (inDir : Path) :
    Option Nat × List String :=
  if !fs.isDirectory inDir then
    (none, ["source directory " ++ inDir.text ++ " does not exist"])
  else
    match fs.sources s inDir with
    | .ok [] => (some 0, ["no TypeScript sources found in " ++ inDir.text])
    | .ok sources => (some sources.length, [])
    | .error e => (none, ["could not list " ++ inDir.text ++ ": " ++ e.message])

def CheckReport.ofLoaded (fs : FileSystem) (s : Schedule) (loaded : Loaded) : CheckReport :=
  let c := loaded.config
  let (count, warnings) := countSources fs s c.inDir.path
  { configPath := loaded.source
    inDir := c.inDir.path
    outDir := c.outDir.path
    bundlePath := c.bundlePath
    clean := c.clean.text
    command := c.compiler.command c.outDir.path c.inDir.path
    sourceCount := count
    phases := Stage.all.map Stage.title
    warnings := warnings }

namespace CommandLine

def version : String := "dtsb 0.5.0"

def usage : String :=
  "Usage: dtsb [-v...] (bundle | check) [--config FILE] [--in-dir DIR] [--out-dir DIR]\n" ++
  "  [--out-file-name NAME] [--clean POLICY] [--tsc PROGRAM] [--json]\n"

inductive Ending
  | printed (text : Printed)
  | notUnderstood
  | misconfigured (e : ConfigError)
  | failed (bundle : Path) (e : PassError)

namespace Ending

def status : Ending → UInt8
  | printed _ => 0
  | notUnderstood => 2
  | misconfigured _ => 1
  | failed _ _ => 1

def chain : Ending → List String
  | failed bundle e => ("Failed to bundle " ++ bundle.text) :: e.chain
  | _ => []

def toPrinted : Ending → Printed
  | printed text => text
  | notUnderstood => ⟨"", usage⟩
  | misconfigured e => ⟨"", Report.unlines (e.message :: e.help.toList)⟩
  | failed bundle e => ⟨"", Report.unlines (failed bundle e).chain⟩

end Ending

def bundle (fs : FileSystem) (launch : Launcher) (s : Schedule) (loaded : Loaded) :
    FileSystem × Except PassError BundleReport :=
  let c := loaded.config
  let (result, state) := (Pipeline.plain (c.compiler.compiler launch s)).run s c fs
  (state.files, result.map fun _ => .ofContext loaded.source state.context)

def run (fs : FileSystem) (launch : Launcher) (s : Schedule) (args : List String) :
    FileSystem × Ending :=
  match read args with
  | none => (fs, .notUnderstood)
  | some .help => (fs, .printed ⟨usage, ""⟩)
  | some .version => (fs, .printed ⟨version ++ "\n", ""⟩)
  | some (.completions _) => (fs, .printed ⟨"", ""⟩)
  | some (.check a) =>
    match Loaded.load fs a.config a.overrides with
    | .error e => (fs, .misconfigured e)
    | .ok loaded =>
      let report := CheckReport.ofLoaded fs s loaded
      (fs, .printed (if a.json then Report.printJson report.toJson else report.print))
  | some (.bundle a) =>
    match Loaded.load fs a.config a.overrides with
    | .error e => (fs, .misconfigured e)
    | .ok loaded =>
      match bundle fs launch s loaded with
      | (fs, .error e) => (fs, .failed loaded.config.bundlePath e)
      | (fs, .ok report) =>
        (fs, .printed (if a.json then Report.printJson report.toJson else report.print))

end CommandLine

end DeclBundle
