import DeclBundle.FileSystem.Resolve
import DeclBundle.Manifest

namespace DeclBundle

structure ManifestFile where
  path : Path
  content : String
  manifest : Manifest
  deriving DecidableEq, Repr

namespace ManifestFile

def defaultPath : Path := ⟨"dtsb.toml"⟩

def open? (fs : FileSystem) (path : Path) : Except ConfigError ManifestFile := do
  let content ← (fs.read path).mapError (.unreadable path)
  return ⟨path, content, ← Manifest.parse path.text content⟩

def baseDir (f : ManifestFile) : Path :=
  f.path.directory

def configure (f : ManifestFile) (cwd : Location) (o : Overrides) : Except ConfigError Config :=
  f.manifest.configure cwd f.baseDir o

end ManifestFile

structure Loaded where
  source : Option Path
  config : Config
  deriving DecidableEq, Repr

namespace Loaded

def ofFile (fs : FileSystem) (path : Path) (o : Overrides) : Except ConfigError Loaded := do
  let file ← ManifestFile.open? fs path
  return ⟨some path, ← file.configure fs.cwd o⟩

/-- A file that is named has to be there. Without a name the usual one is taken if it is there, and
nothing but the overrides if not. -/
def load (fs : FileSystem) (path : Option Path) (o : Overrides) : Except ConfigError Loaded :=
  match path with
  | some path => ofFile fs path o
  | none =>
    if fs.isFile ManifestFile.defaultPath then ofFile fs ManifestFile.defaultPath o
    else return ⟨none, ← Manifest.empty.configure fs.cwd ⟨"."⟩ o⟩

end Loaded

end DeclBundle
