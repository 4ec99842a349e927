import DeclBundle.Text.Pieces

/-!
Values of a TOML document that are neither quoted nor made of others: truth values, integers,
floats, dates and times. No setting is one of them, so a document only has to be told from a text
that is none. A number is first known by how it is written; whether it has a value is a second
question, which nobody asks where the value is not wanted.
-/

namespace DeclBundle.Toml.Scalar

def isDigit (c : Char) : Bool := '0' ≤ c && c ≤ '9'

def isHexDigit (c : Char) : Bool :=
  isDigit c || ('a' ≤ c && c ≤ 'f') || ('A' ≤ c && c ≤ 'F')

def isOctalDigit (c : Char) : Bool := '0' ≤ c && c ≤ '7'

def isBinaryDigit (c : Char) : Bool := c = '0' || c = '1'

def groups (text : List Char) : List (List Char) :=
  (Text.Pieces.cut (· = '_') text).toList

def grouped (digit : Char → Bool) (text : List Char) : Bool :=
  (groups text).all fun group => !group.isEmpty && group.all digit

def isSign (c : Char) : Bool := c = '+' || c = '-'

def isSigned (text : List Char) : Bool := text.head?.any isSign

def dropSign (text : List Char) : List Char :=
  if isSigned text then text.drop 1 else text

def isDecimal (text : List Char) : Bool :=
  text = ['0'] || (grouped isDigit text && text.head? != some '0')

/-- Of the groups after the first only the characters beside the underscores have to be digits. -/
def looselyGrouped : List (List Char) → Bool
  | [] => true
  | [group] => group.head?.any isHexDigit
  | group :: rest =>
    group.head?.any isHexDigit && group.getLast?.any isHexDigit && looselyGrouped rest

def isLooseDecimal (text : List Char) : Bool :=
  text.head? != some '0' && !text.any [' ', '.', 'e', 'E'].contains &&
    match groups text with
    | first :: second :: rest =>
      !first.isEmpty && first.all isDigit && looselyGrouped (second :: rest)
    | _ => false

def isInteger : List Char → Bool
  | '0' :: 'x' :: r => r.isEmpty || grouped isHexDigit r
  | '0' :: 'o' :: r => r.isEmpty || grouped isOctalDigit r
  | '0' :: 'b' :: r => r.isEmpty || grouped isBinaryDigit r
  | text =>
    isDecimal (dropSign text) || isLooseDecimal (dropSign text)

def digitValue (c : Char) : Nat :=
  if isDigit c then c.toNat - '0'.toNat else c.toLower.toNat - 'a'.toNat + 10

def natural (base : Nat) (digits : List Char) : Nat :=
  digits.foldl (fun n c => base * n + digitValue c) 0

def fits (base : Nat) (negative : Bool) (digits : List Char) : Bool :=
  !digits.isEmpty && natural base digits < (1 <<< 63) + negative.toNat

def hasInteger (text : List Char) : Bool :=
  match text.filter (· != '_') with
  | '0' :: 'x' :: r => fits 16 false r
  | '0' :: 'o' :: r => fits 8 false r
  | '0' :: 'b' :: r => fits 2 false r
  | text => (dropSign text).all isDigit && fits 10 (text.head? = some '-') (dropSign text)

def halves (sep : Char → Bool) (text : List Char) : List Char × Option (List Char) :=
  match text.dropWhile (!sep ·) with
  | [] => (text, none)
  | _ :: r => (text.takeWhile (!sep ·), some r)

def floatParts (text : List Char) : List Char × Option (List Char) × Option (List Char) :=
  let (mantissa, exponent) := halves (fun c => c = 'e' || c = 'E') (dropSign text)
  let (whole, fraction) := halves (· = '.') mantissa
  (whole, fraction, exponent)

def isNamed (text : List Char) : Bool :=
  dropSign text = "inf".toList || dropSign text = "nan".toList

def isFloat (text : List Char) : Bool :=
  let (whole, fraction, exponent) := floatParts text
  isNamed text ||
    (isDecimal whole && (fraction.isSome || exponent.isSome) &&
      fraction.all (grouped isDigit) && exponent.all fun e => grouped isDigit (dropSign e))

def floatBound : Nat := ((1 <<< 54) - 1) <<< 970

/-- Whether `n` times the power of ten is below the bound; how many digits that has decides it
unless they are as many as the bound's. -/
def isFinite (n : Nat) (exponent : Int) : Bool :=
  let order := (Nat.toDigits 10 n).length + exponent
  if n = 0 || order < 309 then true
  else if order > 309 then false
  else if exponent < 0 then n < floatBound * Nat.pow 10 exponent.natAbs
  else n * Nat.pow 10 exponent.natAbs < floatBound

def hasFloat (text : List Char) : Bool :=
  let (whole, fraction, exponent) := floatParts (text.filter (· != '_'))
  let fraction := fraction.getD []
  let written := exponent.getD []
  let power : Int := natural 10 (dropSign written)
  isNamed text || isFinite (natural 10 (whole ++ fraction))
    ((if written.head? = some '-' then -power else power) - fraction.length)

def number? (count : Nat) (text : List Char) : Option Nat :=
  if text.length = count && text.all isDigit then some (natural 10 text) else none

def isLeapYear (year : Nat) : Bool :=
  year % 4 = 0 && (year % 100 ≠ 0 || year % 400 = 0)

def daysInMonth (year month : Nat) : Nat :=
  match month with
  | 2 => if isLeapYear year then 29 else 28
  | 4 | 6 | 9 | 11 => 30
  | _ => 31

def within (values : List (Option Nat)) (test : List Nat → Bool) : Bool :=
  ((values.mapM id).map test).getD false

def isDate (text : List Char) : Bool :=
  match (Text.Pieces.cut (· = '-') text).toList with
  | [year, month, day] =>
    within [number? 4 year, number? 2 month, number? 2 day] fun
      | [year, month, day] =>
        1 ≤ month && month ≤ 12 && 1 ≤ day && day ≤ daysInMonth year month
      | _ => false
  | _ => false

def isHourMinute (hour minute : List Char) : Bool :=
  within [number? 2 hour, number? 2 minute] fun
    | [hour, minute] => hour ≤ 23 && minute ≤ 59
    | _ => false

def isTime (text : List Char) : Bool :=
  match (Text.Pieces.cut (· = ':') text).toList with
  | [hour, minute] => isHourMinute hour minute
  | [hour, minute, seconds] =>
    let (whole, fraction) := halves (· = '.') seconds
    isHourMinute hour minute && within [number? 2 whole] (fun s => s.all (· ≤ 60)) &&
      fraction.all fun digits => !digits.isEmpty && digits.all isDigit
  | _ => false

def isOffset : List Char → Bool
  | ['Z'] => true
  | ['z'] => true
  | sign :: r =>
    (sign = '+' || sign = '-') &&
      match (Text.Pieces.cut (· = ':') r).toList with
      | [hour, minute] => isHourMinute hour minute
      | _ => false
  | [] => false

def isOffsetTime (text : List Char) : Bool :=
  let (time, offset) := text.span fun c => isDigit c || c = ':' || c = '.'
  isTime time && (offset.isEmpty || isOffset offset)

def isDateTime (text : List Char) : Bool :=
  match text.drop 10 with
  | [] => isDate text
  | sep :: r =>
    (sep = 'T' || sep = 't' || sep = ' ') && isDate (text.take 10) && isOffsetTime r

def isScalar (text : List Char) : Bool :=
  text = "true".toList || text = "false".toList || isInteger text || isFloat text ||
    isTime text || isDateTime text

def hasValue (text : List Char) : Bool :=
  if isInteger text then hasInteger text
  else if isFloat text then hasFloat text
  else true

def isPart (c : Char) : Bool :=
  !(['=', ',', '[', ']', '\x7b', '\x7d', ' ', '\t', '#', '\r', '\n'].contains c)

def startsWord (text : List Char) : Bool :=
  text.head?.any fun c => isPart c && c != '.' && c != '"' && c != '\''

def cut (text : List Char) : List Char × List Char :=
  let (word, rest) := text.span isPart
  let (blanks, rest') := rest.span fun c => c = ' ' || c = '\t'
  if !blanks.isEmpty && startsWord rest' then
    let (second, rest') := rest'.span isPart
    (word ++ blanks ++ second, rest')
  else (word, rest)

def read? (text : List Char) : Option (Bool × List Char) :=
  let (word, rest) := cut text
  if isScalar word then some (hasValue word, rest) else none

end DeclBundle.Toml.Scalar
