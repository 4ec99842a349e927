import DeclBundle.Config

namespace DeclBundle.CompilerSettings

def flags : List String :=
  ["--emitDeclarationOnly", "--declaration", "--allowJs", "--emitDecoratorMetadata",
    "--experimentalDecorators", "--moduleResolution", "node"]

def leading (s : CompilerSettings) (outDir : Path) : List String :=
  s.args ++ flags ++ ["--outDir", outDir.text]

def arguments (s : CompilerSettings) (outDir : Path) (sources : List Path) : List String :=
  s.leading outDir ++ sources.map Path.text

def command (s : CompilerSettings) (outDir inDir : Path) : String :=
  " ".intercalate (s.program :: s.leading outDir ++ [inDir.text ++ "/**/*.ts"])

end DeclBundle.CompilerSettings
