import DeclBundle.Shell.Format
import DeclBundle.Shell.Utility.Texts

namespace DeclBundle.Shell.Utility

open Work

structure Decimal where
  units : Int
  places : Nat

def Decimal.ofText? (text : String) : Option Decimal :=
  let (negative, body) := match text.toList with
    | '-' :: rest => (true, rest)
    | '+' :: rest => (false, rest)
    | rest => (false, rest)
  let whole := body.takeWhile Char.isDigit
  let rest := body.drop whole.length
  let fraction := match rest with
    | '.' :: rest => rest
    | _ => []
  let isWhole := rest.isEmpty || rest.head? = some '.'
  if !isWhole || !fraction.all Char.isDigit || (whole.isEmpty && fraction.isEmpty) then none
  else
    let n : Int := numberOf 10 (whole ++ fraction)
    some ⟨if negative then -n else n, fraction.length⟩

def Decimal.unitsAt (d : Decimal) (places : Nat) : Int := d.units * Nat.pow 10 (places - d.places)

def showUnits (places width : Nat) (units : Int) : String :=
  let digits := Nat.toDigits 10 units.natAbs
  let digits := List.replicate (places + 1 - digits.length) '0' ++ digits
  let whole := digits.take (digits.length - places)
  let text := whole ++ (if places > 0 then '.' :: digits.drop whole.length else [])
  let sign := if units < 0 then ['-'] else []
  String.ofList (sign ++ List.replicate (width - sign.length - text.length) '0' ++ text)

def seqOperands : List String → Given × List String
  | "-w" :: rest =>
    let (given, others) := seqOperands rest
    (('w', "") :: given, others)
  | "-s" :: text :: rest =>
    let (given, others) := seqOperands rest
    (('s', text) :: given, others)
  | "-f" :: text :: rest =>
    let (given, others) := seqOperands rest
    (('f', text) :: given, others)
  | "--" :: rest => ([], rest)
  | arg :: rest =>
    match arg.toList with
    | '-' :: 's' :: c :: text =>
      let (given, others) := seqOperands rest
      (('s', String.ofList (c :: text)) :: given, others)
    | _ => ([], arg :: rest)
  | [] => ([], [])

def seq : Utility := fun args => do
  let (given, texts) := seqOperands args
  let read (text : String) : Work Decimal := do
    match Decimal.ofText? text with
    | some d => return d
    | none => misused 1 ("invalid floating point argument: " ++ Quote.escaped text)
  let (first, step, last) ← match texts with
    | [] => misused 1 "missing operand"
    | [a] => do pure (⟨1, 0⟩, ⟨1, 0⟩, ← read a)
    | [a, b] => do pure (← read a, ⟨1, 0⟩, ← read b)
    | [a, s, b] => do pure (← read a, ← read s, ← read b)
    | _ :: _ :: _ :: extra :: _ => misused 1 ("extra operand " ++ Quote.escaped extra)
  let places := max (max first.places step.places) last.places
  let shown := max first.places step.places
  let a := first.unitsAt places
  let s := step.unitsAt places
  let b := last.unitsAt places
  if s = 0 then
    misused 1 ("invalid Zero increment value: " ++ Quote.escaped ((texts.drop 1).headD ""))
  let count := ((b - a) / s + 1).toNat
  let isEmpty := (s > 0 && b < a) || (s < 0 && a < b)
  let cut (n : Int) : Int := n / Nat.pow 10 (places - shown)
  let value (k : Nat) : Int := cut (a + s * k)
  let values := if isEmpty then [] else (List.range count).map value
  let width := if given.has 'w' then
      max (showUnits shown 0 (value 0)).length (showUnits shown 0 (value (count - 1))).length
    else 0
  let text (n : Int) : String :=
    match given.value? 'f' with
    | some format => textOf (Format.print .programFormat format [showUnits shown 0 n]).out
    | none => showUnits shown width n
  let glue := (given.value? 's').getD "\n"
  if !values.isEmpty then sayLine (glue.intercalate (values.map text))

def printenv : Utility := fun names => do
  let env := (← get).environment
  if names.isEmpty then env.forM fun (name, value) => sayLine (name ++ "=" ++ value)
  else
    names.forM fun name => do
      match env.lookup name with
      | some value => sayLine value
      | none => settle 1

def sleep : Utility := fun args => do
  let (_, times) ← options "" [] args 1
  if times.isEmpty then misused 1 "missing operand"
  for time in times do
    let chars := time.toList
    let unit := chars.getLast?.any fun c => "smhd".toList.contains c
    let body := if unit then chars.dropLast else chars
    if (Decimal.ofText? (String.ofList body)).isNone then
      complain ("invalid time interval " ++ Quote.escaped time)
      tell ("Try '" ++ (← get).name ++ " --help' for more information.")
      quit 1

def echoOptions : List String → Bool × Bool × List String
  | arg :: rest =>
    match arg.toList with
    | '-' :: c :: letters =>
      if (c :: letters).all fun c => c = 'n' || c = 'e' || c = 'E' then
        let (noEnd, escapes, others) := echoOptions rest
        let own := (c :: letters).reverse.find? (· ≠ 'n')
        let later := rest.takeWhile fun a =>
          a.toList.head? = some '-' && a.length > 1 &&
            (a.toList.drop 1).all fun c => c = 'n' || c = 'e' || c = 'E'
        let decided := later.any fun a => a.toList.any fun c => c = 'e' || c = 'E'
        (noEnd || (c :: letters).contains 'n',
          if decided then escapes else own = some 'e' || escapes, others)
      else (false, false, arg :: rest)
    | _ => (false, false, arg :: rest)
  | [] => (false, false, [])

def echo : Utility := fun args => do
  let (noEnd, escapes, words) := echoOptions args
  let text := " ".intercalate words
  let (bytes, reading) := if escapes then Dialect.programEcho.unescape 0 text.toList
    else (bytesOf text, .whole)
  put (bytes ++ if noEnd || reading = .stopped then [] else [lineFeed])

def printf : Utility := fun args => do
  let args := if args.head? = some "--" then args.drop 1 else args
  match args with
  | [] => misused 1 "missing operand"
  | format :: args => do
    let p := Format.print .programFormat format args
    p.messages.forM complain
    settle p.status
    put p.out

end DeclBundle.Shell.Utility
