import DeclBundle.Manifest.Fit
import DeclBundle.Manifest.Label
import DeclBundle.Toml.Document

namespace DeclBundle

/-- What a command line gives; it goes before what a file says. A program here stands for all the
compiler settings of the file. -/
structure Overrides where
  inDir : Option Path
  outDir : Option Path
  outFileName : Option String
  clean : Option CleanPolicy
  program : Option String
  deriving DecidableEq, Repr

def Overrides.empty : Overrides :=
  ⟨none, none, none, none, none⟩

namespace Manifest

def unusable? (m : Manifest) : Option Unusable :=
  match m.outFileName.bind BundleName.fault? with
  | some fault => some (.bundleName fault)
  | none =>
    if m.inDir = some ⟨""⟩ then some (.emptyPath .inDir)
    else if m.outDir = some ⟨""⟩ then some (.emptyPath .outDir)
    else if Text.allBlank m.compiler.program then some .blankProgram
    else none

def parse (file text : String) : Except ConfigError Manifest :=
  match Toml.Document.parse? text with
  | none => .error (.malformed file)
  | some document =>
    match fit document with
    | .error span =>
      .error (if Toml.entriesValued document then .misfit file span else .malformed file)
    | .ok m =>
      match m.unusable? with
      | some value => .error (.unusable file value (Label.find? text value.setting.key))
      | none => .ok m

def directory (setting : Setting) (base : Path) (given written : Option Path) :
    Except ConfigError Path :=
  match given, written with
  | some path, _ => .ok path
  | none, some path => .ok (base.join path)
  | none, none => .error (.missing setting)

/-- The configuration that a file and the overrides make together. Relative directories of the
file are below `base`, those of the overrides below the working directory. -/
def configure (m : Manifest) (cwd : Location) (base : Path) (o : Overrides) :
    Except ConfigError Config := do
  let inDir ← directory .inDir base o.inDir m.inDir
  let outDir ← directory .outDir base o.outDir m.outDir
  let compiler := match o.program with
    | some program => ⟨program, []⟩
    | none => m.compiler
  Config.new cwd ⟨inDir, outDir, o.outFileName <|> m.outFileName⟩
    ((o.clean <|> m.clean).getD .outDir) compiler

end Manifest

end DeclBundle
