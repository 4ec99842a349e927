import DeclBundle.Shell.Bytes

namespace DeclBundle.Shell

inductive Dialect
  | shellFormat
  | shellText
  | programFormat
  | programText
  | programEcho
  deriving DecidableEq, Repr

inductive Escape
  | bytes (content : Bytes) (used : Nat)
  | stop
  | faulty (problem : String)

namespace Dialect

def isShell (d : Dialect) : Bool :=
  d = shellFormat || d = shellText

def isFormat (d : Dialect) : Bool :=
  d = shellFormat || d = programFormat

def control? : Char → Option UInt8
  | 'a' => some 7
  | 'b' => some 8
  | 't' => some 9
  | 'n' => some 10
  | 'v' => some 11
  | 'f' => some 12
  | 'r' => some 13
  | 'e' => some 27
  | '\\' => some 92
  | _ => none

def octal (text : List Char) : Bytes × Nat :=
  let digits := (text.take 3).takeWhile isOctal
  ([UInt8.ofNat (numberOf 8 digits)], digits.length)

def noHex : Escape := .faulty "missing hexadecimal number in escape"

def isBarred (n : Nat) : Bool :=
  (n ≤ 0x9f && n ≠ 0x24 && n ≠ 0x40 && n ≠ 0x60) || (0xd800 ≤ n && n ≤ 0xdfff)

def unicode (letter : Char) (count : Nat) (text : List Char) : Escape :=
  let digits := (text.take count).takeWhile isHex
  let n := numberOf 16 digits
  let name (letter : Char) (width : Nat) (digits : List Char) : List Char :=
    ['\\', letter] ++ List.replicate (width - digits.length) '0' ++ digits
  if digits.length < count then noHex
  else if isBarred n then
    .faulty ("invalid universal character name " ++
      String.ofList (name letter count (Nat.toDigits 16 n)))
  else if n < 128 then .bytes [UInt8.ofNat n] (count + 1)
  else
    let digits := (Nat.toDigits 16 n).map Char.toUpper
    .bytes (narrow (if n < 65536 then name 'u' 4 digits else name 'U' 8 digits)) (count + 1)

def escape (d : Dialect) (text : List Char) : Escape :=
  match text with
  | [] => .bytes [92] 0
  | c :: rest =>
    match control? c with
    | some b => .bytes [b] 1
    | none =>
      let plain := Escape.bytes (92 :: narrow [c]) 1
      if c = 'c' && d ≠ .shellFormat then .stop
      else if c = '0' && !d.isFormat then
        let (bytes, used) := octal rest
        .bytes bytes (used + 1)
      else if isOctal c then
        let (bytes, used) := octal text
        .bytes bytes used
      else if c = '"' && (d = .programFormat || d = .programText) then .bytes [34] 1
      else if d.isShell then plain
      else if c = 'x' then
        let digits := (rest.take 2).takeWhile isHex
        if digits.isEmpty then (if d = .programEcho then plain else noHex)
        else .bytes [UInt8.ofNat (numberOf 16 digits)] (digits.length + 1)
      else if d = .programEcho then plain
      else if c = 'u' then unicode 'u' 4 rest
      else if c = 'U' then unicode 'U' 8 rest
      else plain

inductive Reading
  | whole
  | stopped
  | faulty (problem : String)
  deriving DecidableEq, Repr

def unescape (d : Dialect) : (used : Nat) → List Char → Bytes × Reading
  | _, [] => ([], .whole)
  | used + 1, _ :: rest => unescape d used rest
  | 0, '\\' :: rest =>
    match d.escape rest with
    | .bytes bytes used =>
      let (others, reading) := unescape d used rest
      (bytes ++ others, reading)
    | .stop => ([], .stopped)
    | .faulty problem => ([], .faulty problem)
  | 0, c :: rest =>
    let (others, reading) := unescape d 0 rest
    (narrow [c] ++ others, reading)

end Dialect

end DeclBundle.Shell
