import DeclBundle.Text.Pieces
import DeclBundle.Path

/-!
Declaration texts. An import line of a declaration file means nothing inside a bundle, so
`stripImports` empties it and keeps the line break, and `merge` joins the texts that remain.
-/

namespace DeclBundle.Declaration

open Text

def isBreak (c : Char) : Bool := c = '\r' || c = '\n'

def importWord : List Char := ['i', 'm', 'p', 'o', 'r', 't']

def isImport (piece : List Char) : Bool :=
  importWord.isPrefixOf piece && importWord.length < piece.length

def blankImport (piece : List Char) : List Char :=
  if isImport piece then [] else piece

def stripImports (text : String) : String :=
  String.ofList (((Pieces.cut isBreak text.toList).map blankImport).join)

def merge (texts : List String) : String :=
  "\n".intercalate (texts.map stripImports)

def suffix : String := ".d.ts"

def isDeclaration (path : Path) : Bool :=
  match path.fileName with
  | some name => suffix.toList.isSuffixOf name.text.toList
  | none => false

end DeclBundle.Declaration
