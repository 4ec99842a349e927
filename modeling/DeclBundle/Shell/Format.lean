import DeclBundle.Shell.Escape
import DeclBundle.Shell.Quote
import DeclBundle.Shell.Rounded

namespace DeclBundle.Shell.Format

structure Layout where
  left : Bool
  plus : Bool
  blank : Bool
  sharp : Bool
  zero : Bool
  grouped : Bool
  width : Nat
  precision : Option Nat

namespace Layout

def none : Layout := ⟨false, false, false, false, false, false, 0, Option.none⟩

def addFlag (d : Dialect) (l : Layout) : Char → Option Layout
  | '-' => some { l with left := true }
  | '+' => some { l with plus := true }
  | ' ' => some { l with blank := true }
  | '#' => some { l with sharp := true }
  | '0' => some { l with zero := true }
  | '\'' | 'I' => if d.isShell then Option.none else some { l with grouped := true }
  | _ => Option.none

def pad (l : Layout) (body : Bytes) : Bytes :=
  let fill := List.replicate (l.width - body.length) (32 : UInt8)
  if l.left then body ++ fill else fill ++ body

def text (l : Layout) (body : Bytes) : Bytes :=
  l.pad (match l.precision with
    | some n => body.take n
    | Option.none => body)

def number (l : Layout) (sign digits : List Char) (fillable : Bool) : Bytes :=
  let missing := l.width - sign.length - digits.length
  let zeros := if l.zero && !l.left && fillable then List.replicate missing '0' else []
  l.pad (narrow (sign ++ zeros ++ digits))

def signOf (l : Layout) (negative : Bool) : List Char :=
  if negative then ['-'] else if l.plus then ['+'] else if l.blank then [' '] else []

def precise (l : Layout) (digits : List Char) : List Char :=
  let digits := if l.precision = some 0 && digits = ['0'] then [] else digits
  List.replicate (l.precision.getD 0 - digits.length) '0' ++ digits

def signed (l : Layout) (n : Int) : Bytes :=
  l.number (l.signOf (n < 0)) (l.precise (Nat.toDigits 10 n.natAbs)) l.precision.isNone

def unsigned (l : Layout) (letter : Char) (n : Nat) : Bytes :=
  let base := if letter = 'o' then 8 else if letter = 'u' then 10 else 16
  let digits := l.precise (Nat.toDigits base n)
  let digits :=
    if letter = 'o' && l.sharp && digits.head? != some '0' then '0' :: digits else digits
  let sign := if base = 16 && l.sharp && n ≠ 0 then ['0', 'x'] else []
  let shift (text : List Char) := if letter = 'X' then text.map Char.toUpper else text
  l.number (shift sign) (shift digits) l.precision.isNone

def real (w : Width) (l : Layout) (letter : Char) (r : Rounded) : Bytes :=
  let mark := if !r.isFinite then [] else if letter = 'a' then ['0', 'x']
    else if letter = 'A' then ['0', 'X'] else []
  l.number (l.signOf r.isNegative ++ mark) (r.render w letter l.precision l.sharp) r.isFinite

end Layout

structure Progress where
  args : List String
  out : Bytes
  messages : List String
  status : Nat

inductive Halt
  | stopped
  | refused (message : String) (status : Nat)

abbrev Writer := ExceptT Halt (StateM Progress)

def put (bytes : Bytes) : Writer Unit :=
  modify fun p => { p with out := p.out ++ bytes }

def argument? : Writer (Option String) := do
  let p ← get
  match p.args with
  | [] => return none
  | arg :: rest =>
    set { p with args := rest }
    return some arg

def remark (message : String) : Writer Unit :=
  modify fun p => { p with messages := p.messages ++ [message], status := 1 }

def shown (d : Dialect) (arg : String) : String :=
  if d.isShell then arg else Quote.escaped arg

def checkNumber (d : Dialect) (arg : String) (found : Bool) (rest : List Char) (inRange : Bool) :
    Writer Unit :=
  if !rest.isEmpty && !found then
    remark (shown d arg ++
      (if d.isShell then ": expected numeric value" else ": expected a numeric value"))
  else if !inRange then remark (shown d arg ++ ": Numerical result out of range")
  else if !rest.isEmpty then
    remark (shown d arg ++
      (if d.isShell then ": not completely converted" else ": value not completely converted"))
  else pure ()

def quotedCode? (d : Dialect) (arg : String) : Writer (Option Nat) := do
  match arg.toList with
  | c :: rest =>
    if c ≠ '\'' && c ≠ '"' then return none
    match bytesOf (String.ofList rest) with
    | [] => return if d.isShell then some 0 else none
    | b :: more => do
      if !d.isShell && !more.isEmpty then
        let p ← get
        set { p with messages := p.messages ++ ["warning: " ++ textOf more ++
          ": character(s) following character constant have been ignored"] }
      return some b.toNat
  | [] => return none

def clamp (low high n : Int) : Int := max low (min high n)

def integer (d : Dialect) (low high : Int) : Writer Int := do
  match ← argument? with
  | none => return 0
  | some arg => do
    match ← quotedCode? d arg with
    | some n => return n
    | none => do
      match Numeral.read? true arg.toList with
      | none => do
        checkNumber d arg false arg.toList true
        return 0
      | some n => do
        let reduced := clamp low high n.value
        checkNumber d arg true n.rest (reduced = n.value)
        return reduced

def signedValue (d : Dialect) : Writer Int :=
  integer d Int64.minValue.toInt Int64.maxValue.toInt

def unsignedValue (d : Dialect) : Writer Nat := do
  let n ← integer d (1 - UInt64.size) (UInt64.size - 1)
  return (n % UInt64.size).toNat

def width (d : Dialect) : Width :=
  if d.isShell then .double else .extended

def realValue (d : Dialect) : Writer Rounded := do
  match ← argument? with
  | none => return .finite false 0 0
  | some arg => do
    match ← quotedCode? d arg with
    | some n => return (Rounded.ofQuotient (width d) false n 1).1
    | none => do
      match Rounded.read? (width d) arg.toList with
      | none => do
        checkNumber d arg false arg.toList true
        return .finite false 0 0
      | some r => do
        checkNumber d arg true r.rest r.inRange
        return r.value

def flags (d : Dialect) : Layout → List Char → Layout × List Char
  | l, [] => (l, [])
  | l, c :: rest =>
    match l.addFlag d c with
    | some l => flags d l rest
    | none => (l, c :: rest)

def mostPlaces : Nat := 2147483647

def count (d : Dialect) (what : String) (text : List Char) : Writer (Option Int × List Char) := do
  match text with
  | '*' :: rest => do
    let shown := Quote.escaped ((← get).args.headD "")
    let n ← signedValue d
    if !d.isShell && (n > mostPlaces || (what = "field width" && n < -mostPlaces)) then
      throw (.refused ("invalid " ++ what ++ ": " ++ shown) 1)
    return (some n, rest)
  | text =>
    let digits := text.takeWhile Char.isDigit
    let n := numberOf 10 digits
    if n > mostPlaces then
      throw (if d.isShell then .refused "xvsnprintf failed" 2 else .refused "write error" 1)
    return (if digits.isEmpty then none else some n, text.drop digits.length)

def sizeLetters : List Char := ['l', 'L', 'h', 'j', 't', 'z']

def isAllowed (l : Layout) (letter : Char) : Bool :=
  "diouxXaAeEfFgGcs".toList.contains letter &&
    !(l.grouped && !"difFgGu".toList.contains letter) &&
    !(l.sharp && ['c', 'd', 'i', 's', 'u'].contains letter) &&
    !(l.zero && ['c', 's'].contains letter) && !(l.precision.isSome && letter = 'c')

def refuse {α : Type} (d : Dialect) (directive : List Char) : Writer α :=
  let shown := "%" ++ String.ofList directive
  if d.isShell then throw (.refused (shown ++ ": invalid directive") 2)
  else throw (.refused (shown ++ ": invalid conversion specification") 1)

def convert (d : Dialect) (l : Layout) (letter : Char) (directive : List Char) : Writer Unit := do
  match letter with
  | 'd' | 'i' => put (l.signed (← signedValue d))
  | 'o' | 'u' | 'x' | 'X' => put (l.unsigned letter (← unsignedValue d))
  | 'a' | 'A' | 'e' | 'E' | 'f' | 'F' | 'g' | 'G' =>
    put (l.real (width d) letter (← realValue d))
  | 'c' =>
    let bytes := bytesOf ((← argument?).getD "")
    put (l.pad (if bytes.isEmpty then [0] else bytes.take 1))
  | 's' => put (l.text (bytesOf ((← argument?).getD "")))
  | _ => refuse d directive

def textDialect (d : Dialect) : Dialect :=
  if d.isShell then .shellText else .programText

def escapedArgument (d : Dialect) (l : Layout) : Writer Unit := do
  let (bytes, reading) := (textDialect d).unescape 0 ((← argument?).getD "").toList
  put (l.text bytes)
  match reading with
  | .whole => return
  | .stopped => throw .stopped
  | .faulty problem => throw (.refused problem 1)

def directive (d : Dialect) (text : List Char) : Writer (List Char) := do
  match text with
  | '%' :: rest => do
    put [37]
    return rest
  | text => do
    let (l, rest) := flags d .none text
    let (width, rest) ← count d "field width" rest
    let l := match width with
      | some n => { l with width := n.natAbs, left := l.left || n < 0 }
      | none => l
    let (l, rest) ← match rest with
      | '.' :: rest => do
        let (n, rest) ← count d "precision" rest
        pure ({ l with precision := if n.getD 0 < 0 then none else some (n.getD 0).toNat }, rest)
      | rest => pure (l, rest)
    let rest := if d.isShell then rest else rest.dropWhile sizeLetters.contains
    let used := text.take (text.length - rest.length)
    match rest with
    | [] =>
      if d.isShell then throw (.refused "missing format character" 2) else refuse d used
    | 'b' :: rest => do
      if !d.isShell && !used.isEmpty then refuse d (used ++ ['b'])
      escapedArgument d l
      return rest
    | letter :: rest => do
      if !d.isShell && used.isEmpty && letter = 'q' then
        put (bytesOf (Quote.ifNeeded ((← argument?).getD "")))
        return rest
      if !d.isShell && !isAllowed l letter then refuse d (used ++ [letter])
      convert d l letter (used ++ [letter])
      return rest

def once (d : Dialect) : (fuel : Nat) → List Char → Writer Unit
  | 0, _ => return
  | _ + 1, [] => return
  | fuel + 1, '\\' :: rest => do
    match d.escape rest with
    | .bytes bytes used => do
      put bytes
      once d fuel (rest.drop used)
    | .stop => throw .stopped
    | .faulty problem => throw (.refused problem 1)
  | fuel + 1, '%' :: rest => do once d fuel (← directive d rest)
  | fuel + 1, c :: rest => do
    put (narrow [c])
    once d fuel rest

def again (d : Dialect) (format : List Char) : (fuel : Nat) → Writer Unit
  | 0 => return
  | fuel + 1 => do
    let before := (← get).args.length
    once d (format.length + 1) format
    let p ← get
    if p.args.length < before && !p.args.isEmpty then again d format fuel
    else
      match p.args with
      | arg :: _ =>
        if !d.isShell then
          set { p with messages := p.messages ++
            ["warning: ignoring excess arguments, starting with " ++ Quote.escaped arg] }
      | [] => return

def print (d : Dialect) (format : String) (args : List String) : Progress :=
  let (halt, p) := (again d format.toList (args.length + 1)).run ⟨args, [], [], 0⟩
  match halt with
  | .error (.refused message status) =>
    { p with messages := p.messages ++ [message], status := status }
  | .error .stopped => if d.isShell then p else { p with status := 0 }
  | .ok () => p

end DeclBundle.Shell.Format
