import DeclBundle.Location
import DeclBundle.Text.Utf8

/-!
Bytes, as programs read and write them, and the texts and lines they stand for. Programs know no
characters but bytes: each character of a text that they work on is one byte, which is its code.
Texts of the outside are `encoded` for them, and paths are `decoded` where they meet the tree.
-/

namespace DeclBundle.Shell

abbrev Bytes := List UInt8

def narrow (chars : List Char) : Bytes :=
  chars.map fun c => UInt8.ofNat c.toNat

def widen (bytes : Bytes) : List Char :=
  bytes.map fun b => Char.ofNat b.toNat

def bytesOf (text : String) : Bytes :=
  narrow text.toList

def textOf (bytes : Bytes) : String :=
  String.ofList (widen bytes)

def encoded (text : String) : String :=
  textOf text.toUTF8.data.toList

def decoded (text : String) : String :=
  Text.lossy ⟨(bytesOf text).toArray⟩

def pathOf (text : String) : Path := ⟨decoded text⟩

def nameOf (n : Name) : String := encoded n.text

def placeOf (l : Location) : String := encoded l.path.text

def lineFeed : UInt8 := 10

def linesOf (bytes : Bytes) : List Bytes :=
  let (last, lines) := bytes.foldl
    (fun (line, lines) b =>
      if b = lineFeed then ([], line.reverse :: lines) else (b :: line, lines))
    (([] : Bytes), ([] : List Bytes))
  (if last.isEmpty then lines else last.reverse :: lines).reverse

def endsInLineFeed (bytes : Bytes) : Bool :=
  bytes.getLast? = some lineFeed

def unlines (lines : List Bytes) : Bytes :=
  lines.flatMap (· ++ [lineFeed])

def isOctal (c : Char) : Bool := '0' ≤ c && c ≤ '7'

def isHex (c : Char) : Bool :=
  c.isDigit || ('a' ≤ c && c ≤ 'f') || ('A' ≤ c && c ≤ 'F')

def digitValue (c : Char) : Nat :=
  if c.isDigit then c.toNat - '0'.toNat else c.toLower.toNat - 'a'.toNat + 10

def numberOf (base : Nat) (digits : List Char) : Nat :=
  digits.foldl (fun n c => base * n + digitValue c) 0

end DeclBundle.Shell
