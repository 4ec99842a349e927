import DeclBundle.Shell.Numeral

namespace DeclBundle.Shell

structure Width where
  digits : Nat
  leading : Nat
  least : Int
  greatest : Int

namespace Width

def double : Width := ⟨53, 1, -1074, 971⟩

def extended : Width := ⟨64, 4, -16445, 16320⟩

end Width

inductive Rounded
  | finite (negative : Bool) (significand : Nat) (exponent : Int)
  | infinite (negative : Bool)
  | nan (negative : Bool)

namespace Rounded

def roundDiv (num den : Nat) : Nat :=
  let q := num / den
  let twice := 2 * (num % den)
  if twice > den || (twice = den && q % 2 = 1) then q + 1 else q

def scaleDiv (base num den : Nat) (power : Int) : Nat :=
  if power ≥ 0 then roundDiv (num * Nat.pow base power.toNat) den
  else roundDiv num (den * Nat.pow base (-power).toNat)

def significand (w : Width) (num den : Nat) (exponent : Int) : Nat × Int :=
  let m := scaleDiv 2 num den (-exponent)
  if m ≥ 1 <<< w.digits then (scaleDiv 2 num den (-(exponent + 1)), exponent + 1) else (m, exponent)

def lastExponent (w : Width) (num den : Nat) : Int :=
  let size : Int := (num.log2 : Int) - den.log2
  let reaches := if size ≥ 0 then den <<< size.toNat ≤ num else den ≤ num <<< (-size).toNat
  (if reaches then size + 1 else size) - w.digits

def isExact (num den m : Nat) (exponent : Int) : Bool :=
  if exponent ≥ 0 then (m <<< exponent.toNat) * den = num
  else m * den = num <<< (-exponent).toNat

/-- The nearest number to a quotient. It is out of range if it is too great, or so small that digits
are lost. -/
def ofQuotient (w : Width) (negative : Bool) (num den : Nat) : Rounded × Bool :=
  if num = 0 then (.finite negative 0 0, true)
  else
    let free := lastExponent w num den
    let (m, exponent) := significand w num den (max free w.least)
    if exponent > w.greatest then (.infinite negative, false)
    else
      let isTiny := (significand w num den free).2 < w.least
      (.finite negative m exponent, !isTiny || isExact num den m exponent)

def isFinite : Rounded → Bool
  | finite _ _ _ => true
  | _ => false

structure Reading where
  value : Rounded
  inRange : Bool
  rest : List Char

def pointed? (isDigit : Char → Bool) (text : List Char) : Option (List Char × Nat × List Char) :=
  let whole := text.takeWhile isDigit
  let rest := text.drop whole.length
  let (fraction, after) := match rest with
    | '.' :: after =>
      let fraction := after.takeWhile isDigit
      (fraction, after.drop fraction.length)
    | after => ([], after)
  if whole.isEmpty && fraction.isEmpty then none
  else some (whole ++ fraction, fraction.length, after)

def power (letter : Char) (bound : Nat) (text : List Char) : Int × List Char :=
  match text with
  | c :: after =>
    let (negative, digits) := takeSign after
    let found := digits.takeWhile Char.isDigit
    if c.toLower ≠ letter || found.isEmpty then (0, text)
    else
      let n : Int := min (numberOf 10 found) bound
      (if negative then -n else n, digits.drop found.length)
  | [] => (0, [])

def readDigits? (w : Width) (negative : Bool) (base unit : Nat) (isDigit : Char → Bool)
    (letter : Char) (text : List Char) : Option Reading := do
  let (digits, places, rest) ← pointed? isDigit text
  let (shift, rest) := power letter (4 * digits.length + 20000) rest
  let places : Int := if unit = base then places else 4 * places
  let shift := shift - places
  let num := numberOf base digits
  let (value, inRange) :=
    if shift ≥ 0 then ofQuotient w negative (num * Nat.pow unit shift.toNat) 1
    else ofQuotient w negative num (Nat.pow unit (-shift).toNat)
  return ⟨value, inRange, rest⟩

def afterNan (text : List Char) : List Char :=
  match text with
  | '(' :: rest =>
    match rest.dropWhile fun c => c.isAlphanum || c = '_' with
    | ')' :: rest => rest
    | _ => text
  | _ => text

def read? (w : Width) (text : List Char) : Option Reading :=
  let (negative, text) := takeSign (text.dropWhile isSpace)
  let starts (word : String) : Bool := word.toList.isPrefixOf (text.map Char.toLower)
  if starts "infinity" then some ⟨.infinite negative, true, text.drop 8⟩
  else if starts "inf" then some ⟨.infinite negative, true, text.drop 3⟩
  else if starts "nan" then some ⟨.nan negative, true, afterNan (text.drop 3)⟩
  else
    let hexadecimal := if starts "0x" then
        readDigits? w negative 16 2 isHex 'p' (text.drop 2) else none
    match hexadecimal with
    | some reading => some reading
    | none => readDigits? w negative 10 10 Char.isDigit 'e' text

def scaled (m : Nat) (exponent power : Int) : Nat :=
  if exponent ≥ 0 then scaleDiv 10 (m <<< exponent.toNat) 1 power
  else scaleDiv 10 m (1 <<< (-exponent).toNat) power

def digits (n : Nat) : List Char := Nat.toDigits 10 n

def padded (width : Nat) (text : List Char) : List Char :=
  List.replicate (width - text.length) '0' ++ text

def withPoint (whole fraction : List Char) (point : Bool) : List Char :=
  whole ++ (if point || !fraction.isEmpty then '.' :: fraction else [])

def fixed (m : Nat) (exponent : Int) (places : Nat) (point : Bool) : List Char :=
  let text := padded (places + 1) (digits (scaled m exponent places))
  let whole := text.take (text.length - places)
  withPoint whole (text.drop whole.length) point

def magnitude (m : Nat) (exponent : Int) : Int :=
  if exponent ≥ 0 then (digits (m <<< exponent.toNat)).length - 1
  else
    let shift := (-exponent).toNat
    (digits ((m * Nat.pow 10 shift) >>> shift)).length - 1 - shift

def leadingDigits (m : Nat) (exponent : Int) (places : Nat) : Int × List Char :=
  if m = 0 then (0, List.replicate (places + 1) '0')
  else
    let size := magnitude m exponent
    let text := digits (scaled m exponent (places - size))
    if text.length > places + 1 then
      (size + 1, digits (scaled m exponent (places - size - 1)))
    else (size, text)

def withPower (text : List Char) (letter : Char) (width : Nat) (power : Int) : List Char :=
  let sign := if power < 0 then '-' else '+'
  text ++ [letter, sign] ++ padded width (digits power.natAbs)

def scientific (m : Nat) (exponent : Int) (places : Nat) (point : Bool) : List Char :=
  let (power, text) := leadingDigits m exponent places
  withPower (withPoint (text.take 1) (text.drop 1) point) 'e' 2 power

def trimZeros (text : List Char) : List Char :=
  (text.reverse.dropWhile (· = '0')).reverse

def general (m : Nat) (exponent : Int) (precision : Nat) (point : Bool) : List Char :=
  let precision := max precision 1
  let (power, text) := leadingDigits m exponent (precision - 1)
  let trimmed (fraction : List Char) := if point then fraction else trimZeros fraction
  if -4 ≤ power && power < precision then
    let places := ((precision : Int) - 1 - power).toNat
    let text := padded (places + 1) (digits (scaled m exponent places))
    let whole := text.take (text.length - places)
    withPoint whole (trimmed (text.drop whole.length)) point
  else withPower (withPoint (text.take 1) (trimmed (text.drop 1)) point) 'e' 2 power

def hexadecimal (w : Width) (m : Nat) (exponent : Int) (precision : Option Nat) (point : Bool) :
    List Char :=
  let places := (w.digits - w.leading) / 4
  let kept := min (precision.getD places) places
  let n := roundDiv m (1 <<< (4 * (places - kept)))
  let (whole, power) := (n >>> (4 * kept), if m = 0 then 0 else exponent + 4 * places)
  let (whole, power) := if whole = 16 then (1, power + 4) else (whole, power)
  let fraction := if kept = 0 then [] else padded kept (Nat.toDigits 16 (n % (1 <<< (4 * kept))))
  let fraction := match precision with
    | some precision => fraction ++ List.replicate (precision - kept) '0'
    | none => trimZeros fraction
  withPower (withPoint (Nat.toDigits 16 whole) fraction point) 'p' 1 power

def render (w : Width) (letter : Char) (precision : Option Nat) (point : Bool) :
    Rounded → List Char
  | infinite _ => if letter.isUpper then "INF".toList else "inf".toList
  | nan _ => if letter.isUpper then "NAN".toList else "nan".toList
  | finite _ m exponent =>
    let text := match letter.toLower with
      | 'f' => fixed m exponent (precision.getD 6) point
      | 'e' => scientific m exponent (precision.getD 6) point
      | 'a' => hexadecimal w m exponent precision point
      | _ => general m exponent (precision.getD 6) point
    if letter.isUpper then text.map Char.toUpper else text

def isNegative : Rounded → Bool
  | finite negative _ _ => negative
  | infinite negative => negative
  | nan negative => negative

end Rounded

end DeclBundle.Shell
