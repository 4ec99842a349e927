import DeclBundle.Config.BundleName
import DeclBundle.IoError
import DeclBundle.Text.Span

namespace DeclBundle

inductive Setting
  | inDir
  | outDir
  | outFileName
  | program
  deriving DecidableEq, Repr

namespace Setting

def key : Setting → String
  | inDir => "in_dir"
  | outDir => "out_dir"
  | outFileName => "out_file_name"
  | program => "program"

def title : Setting → String
  | program => "compiler.program"
  | setting => setting.key

def flag : Setting → String
  | inDir => "in-dir"
  | outDir => "out-dir"
  | outFileName => "out-file-name"
  | program => "tsc"

end Setting

inductive Unusable
  | bundleName (fault : BundleName.Fault)
  | emptyPath (setting : Setting)
  | blankProgram
  deriving DecidableEq, Repr

namespace Unusable

def setting : Unusable → Setting
  | bundleName _ => .outFileName
  | emptyPath setting => setting
  | blankProgram => .program

def message : Unusable → String
  | bundleName fault => "invalid bundle file name: " ++ fault.message
  | emptyPath setting => setting.key ++ " must not be empty"
  | blankProgram => "compiler program must not be empty"

end Unusable

inductive ConfigError
  | unreadable (path : Path) (source : IoError)
  | malformed (file : String)
  | misfit (file : String) (span : Span)
  | unusable (file : String) (value : Unusable) (span : Option Span)
  | missing (setting : Setting)
  | empty (setting : Setting)
  | bundleName (name : String) (fault : BundleName.Fault)
  | wipesInput (outDir inDir : Path)
  | unresolved (path : Path) (source : IoError)
  deriving DecidableEq, Repr

namespace ConfigError

def message : ConfigError → String
  | unreadable path _ => "failed to read '" ++ path.text ++ "'"
  | malformed _ => "failed to parse dtsb.toml"
  | misfit _ _ => "failed to parse dtsb.toml"
  | unusable _ value _ => value.message
  | missing setting => "missing required option '" ++ setting.title ++ "'"
  | empty setting => "option '" ++ setting.title ++ "' must not be empty"
  | bundleName name _ => "invalid bundle file name '" ++ name ++ "'"
  | wipesInput outDir inDir =>
    "output directory '" ++ outDir.text ++ "' contains the input directory '" ++ inDir.text ++ "'"
  | unresolved path _ => "failed to resolve '" ++ path.text ++ "'"

def code : ConfigError → Option String
  | unreadable _ _ => none
  | malformed _ => some "dtsb::parse_error"
  | misfit _ _ => some "dtsb::parse_error"
  | unusable _ _ _ => some "dtsb::validation_error"
  | missing _ => some "dtsb::missing_option"
  | empty _ => some "dtsb::empty_option"
  | bundleName _ _ => some "dtsb::invalid_file_name"
  | wipesInput _ _ => some "dtsb::unsafe_clean"
  | unresolved _ _ => none

def help : ConfigError → Option String
  | unreadable _ _ => some "create a dtsb.toml or pass --in-dir and --out-dir"
  | missing setting =>
    some ("set \x60" ++ setting.key ++ "\x60 under [bundle] in dtsb.toml or pass --" ++
      setting.flag)
  | bundleName _ fault => some fault.message
  | wipesInput _ _ =>
    some ("the out-dir pre-clean would delete the sources; " ++
      "choose a separate out_dir or set clean = \"bundle\"")
  | _ => none

def source : ConfigError → Option IoError
  | unreadable _ source => some source
  | unresolved _ source => some source
  | _ => none

def file : ConfigError → Option String
  | malformed file => some file
  | misfit file _ => some file
  | unusable file _ _ => some file
  | _ => none

def span : ConfigError → Option Span
  | misfit _ span => some span
  | unusable _ _ span => span
  | _ => none

def label : ConfigError → Option String
  | misfit _ _ => some "parse error here"
  | unusable _ value (some _) => some value.message
  | _ => none

end ConfigError

end DeclBundle
