import DeclBundle.Config.CleanPolicy
import DeclBundle.Config.Error
import DeclBundle.Location

/-!
The configuration of a pass. `Config.new` accepts some options with a clean policy and a compiler:
the directories become places, and the bundle gets its name within the output directory.
-/

namespace DeclBundle

structure Options where
  inDir : Path
  outDir : Path
  outFileName : Option String
  deriving DecidableEq, Repr

structure CompilerSettings where
  program : String
  args : List String
  deriving DecidableEq, Repr

def CompilerSettings.default : CompilerSettings := ⟨"tsc", []⟩

structure Config where
  inDir : Location
  outDir : Location
  bundleName : Name
  clean : CleanPolicy
  compiler : CompilerSettings
  deriving DecidableEq, Repr

namespace Config

def bundle (c : Config) : Location :=
  c.outDir ++ [c.bundleName]

def bundlePath (c : Config) : Path :=
  c.bundle.path

def resolve (cwd : Location) (p : Path) : Except ConfigError Location :=
  (p.place cwd).mapError (.unresolved p)

/-- The first of these faults is the answer: an empty directory, a blank program, a bad bundle
name, and a clean output directory that would take the sources along. -/
def new (cwd : Location) (options : Options) (clean : CleanPolicy) (compiler : CompilerSettings) :
    Except ConfigError Config :=
  if options.inDir.text = "" then .error (.empty .inDir)
  else if options.outDir.text = "" then .error (.empty .outDir)
  else if Text.allBlank compiler.program then .error (.empty .program)
  else do
    let given := options.outFileName.getD BundleName.default
    let bundleName ← (BundleName.fileName given).mapError (.bundleName given)
    let inDir ← resolve cwd options.inDir
    let outDir ← resolve cwd options.outDir
    if clean = .outDir ∧ outDir.isPrefixOf inDir then
      throw (.wipesInput outDir.path inDir.path)
    return ⟨inDir, outDir, bundleName, clean, compiler⟩

end Config

end DeclBundle
