import DeclBundle.Shell.Bytes

namespace DeclBundle.Shell

structure ModeChange where
  who : List Char
  sign : Char
  what : List Char

inductive Mode
  | exact (bits : Nat)
  | changes (list : List ModeChange)

namespace Mode

def octal? (text : List Char) : Option Nat :=
  if !text.isEmpty && text.all isOctal && numberOf 8 text ≤ 0o7777 then some (numberOf 8 text)
  else none

def changes? (who : List Char) : (fuel : Nat) → List Char → Option (List ModeChange)
  | 0, _ => none
  | _ + 1, [] => some []
  | fuel + 1, sign :: rest =>
    if sign = '+' || sign = '-' || sign = '=' then
      let what := rest.takeWhile fun c => "rwxXstugo".toList.contains c
      (changes? who fuel (rest.drop what.length)).map (⟨who, sign, what⟩ :: ·)
    else none

def clause? (text : List Char) : Option (List ModeChange) :=
  let who := text.takeWhile fun c => "ugoa".toList.contains c
  match text.drop who.length with
  | [] => none
  | rest => changes? who (rest.length + 1) rest

def clauses? : (fuel : Nat) → List Char → Option (List ModeChange)
  | 0, _ => none
  | fuel + 1, text => do
    let first := text.takeWhile (· ≠ ',')
    let changes ← clause? first
    match text.drop first.length with
    | [] => return changes
    | _ :: rest => return changes ++ (← clauses? fuel rest)

def ofText? (text : String) : Option Mode :=
  match octal? text.toList with
  | some bits => some (.exact bits)
  | none => (clauses? (text.length + 1) text.toList).map .changes

def shift : Char → Nat
  | 'u' => 6
  | 'g' => 3
  | _ => 0

def bitsOf (isDirectory : Bool) (bits : Nat) (what : List Char) : Nat :=
  what.foldl (fun n c =>
    n ||| match c with
      | 'r' => 4
      | 'w' => 2
      | 'x' => 1
      | 'X' => if isDirectory || bits &&& 0o111 ≠ 0 then 1 else 0
      | 'u' | 'g' | 'o' => (bits >>> shift c) &&& 7
      | _ => 0) 0

def special (who what : List Char) : Nat :=
  let isFor (c : Char) : Bool := who.contains c || who.contains 'a' || who.isEmpty
  (if what.contains 's' && isFor 'u' then 0o4000 else 0) |||
    (if what.contains 's' && isFor 'g' then 0o2000 else 0) |||
    (if what.contains 't' then 0o1000 else 0)

def without (bits gone : Nat) : Nat := bits - (bits &&& gone)

def change (c : ModeChange) (isDirectory : Bool) (mask bits : Nat) : Nat :=
  let who := if c.who.isEmpty || c.who.contains 'a' then ['u', 'g', 'o'] else c.who
  let spread (n : Nat) : Nat := who.foldl (fun all w => all ||| (n <<< shift w)) 0
  let masked (n : Nat) : Nat := if c.who.isEmpty then without n mask else n
  let given := masked (spread (bitsOf isDirectory bits c.what) ||| special c.who c.what)
  match c.sign with
  | '+' => bits ||| given
  | '-' => without bits given
  | _ =>
    let kept := if isDirectory then spread 7
      else spread 7 ||| special who ['s'] ||| (if who.contains 'o' then 0o1000 else 0)
    without bits kept ||| given

def apply (m : Mode) (isDirectory : Bool) (mask bits : Nat) : Nat :=
  match m with
  | exact bits => bits
  | changes list => list.foldl (fun bits c => change c isDirectory mask bits) bits

def letters (bits : Nat) : String :=
  let one (shift : Nat) (special : Nat) (lower upper : Char) : List Char :=
    let n := bits >>> shift
    let x := n &&& 1 ≠ 0
    [if n &&& 4 ≠ 0 then 'r' else '-', if n &&& 2 ≠ 0 then 'w' else '-',
      if bits &&& special ≠ 0 then (if x then lower else upper) else if x then 'x' else '-']
  String.ofList (one 6 0o4000 's' 'S' ++ one 3 0o2000 's' 'S' ++ one 0 0o1000 't' 'T')

end Mode

end DeclBundle.Shell
