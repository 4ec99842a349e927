import DeclBundle.Shell.Bytes

namespace DeclBundle.Shell.Quote

def isShown (b : UInt8) : Bool := 32 ≤ b && b < 127

def isPlain (c : Char) : Bool :=
  c.isAlphanum || "%+,-./:@_]\x7b\x7d#~".toList.contains c

def controlLetter? (b : UInt8) : Option Char :=
  if b = 7 then some 'a' else if b = 8 then some 'b' else if b = 9 then some 't'
  else if b = 10 then some 'n' else if b = 11 then some 'v' else if b = 12 then some 'f'
  else if b = 13 then some 'r' else none

def octal3 (b : UInt8) : List Char :=
  let digits := Nat.toDigits 8 b.toNat
  List.replicate (3 - digits.length) '0' ++ digits

def escape (b : UInt8) : List Char :=
  match controlLetter? b with
  | some c => ['\\', c]
  | none => '\\' :: octal3 b

def escaped (text : String) : String :=
  let body := (bytesOf text).flatMap fun b =>
    if b = 39 || b = 92 then ['\\', Char.ofNat b.toNat]
    else if isShown b then [Char.ofNat b.toNat]
    else escape b
  String.ofList ('\'' :: body ++ ['\''])

def stretches (escapes : Bool) : List UInt8 → List Char
  | [] => if escapes then ['\''] else []
  | b :: rest =>
    if b = 39 then
      (if escapes then ['\''] else []) ++ "'\\''".toList ++ stretches false rest
    else if isShown b then
      (if escapes then "''".toList else []) ++ Char.ofNat b.toNat :: stretches false rest
    else (if escapes then [] else "'$'".toList) ++ escape b ++ stretches true rest

def forShell (text : String) : String :=
  let bytes := bytesOf text
  let chars := text.toList
  if bytes.all isShown then
    if !chars.contains '\'' then "'" ++ text ++ "'"
    else if !chars.any fun c => c = '"' || c = '$' || c = '\x60' || c = '\\' || c = '!' then
      "\"" ++ text ++ "\""
    else String.ofList ('\'' :: stretches false bytes ++ ['\''])
  else
    let ending := if bytes.getLast?.all isShown then ['\''] else []
    String.ofList ('\'' :: stretches false bytes ++ ending)

def ifNeeded (text : String) : String :=
  let starts := text.toList.head?.any fun c => c ≠ '#' && c ≠ '~'
  if starts && text.toList.all isPlain then text else forShell text

end DeclBundle.Shell.Quote
