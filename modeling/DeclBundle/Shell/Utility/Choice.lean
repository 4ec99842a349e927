import DeclBundle.Shell.Escape
import DeclBundle.Shell.Pattern
import DeclBundle.Shell.Utility.Texts

namespace DeclBundle.Shell.Utility

open Work

inductive SetItem
  | byte (b : UInt8)
  | filler (b : UInt8)
  | upper
  | lower

def classBytes (name : List Char) : List UInt8 :=
  let all := (List.range 256).map UInt8.ofNat
  all.filter fun b => b < 128 && (Range.named (String.ofList name)).holds (Char.ofNat b.toNat)

def setItems (text : String) : (fuel : Nat) → List Char → Except String (List SetItem)
  | 0, _ => .ok []
  | _ + 1, [] => .ok []
  | fuel + 1, '[' :: ':' :: rest => do
    let name := rest.takeWhile Char.isAlpha
    match rest.drop name.length with
    | ':' :: ']' :: rest => do
      let items := match String.ofList name with
        | "upper" => [SetItem.upper]
        | "lower" => [SetItem.lower]
        | _ => (classBytes name).map SetItem.byte
      return items ++ (← setItems text fuel rest)
    | _ => return .byte 91 :: .byte 58 :: (← setItems text fuel rest)
  | fuel + 1, '[' :: c :: '*' :: rest => do
    let digits := rest.takeWhile Char.isDigit
    match rest.drop digits.length with
    | ']' :: rest => do
      let b := UInt8.ofNat c.toNat
      let n := numberOf 10 digits
      let items := if n = 0 then [SetItem.filler b] else List.replicate n (.byte b)
      return items ++ (← setItems text fuel rest)
    | _ => return .byte 91 :: (← setItems text fuel (c :: '*' :: rest))
  | fuel + 1, c :: rest => do
    let (first, rest) := one c rest
    match rest with
    | '-' :: d :: more => do
      let (last, more) := one d more
      if last < first then
        throw ("range-endpoints of '" ++ String.ofList [c, '-', d] ++
          "' are in reverse collating sequence order")
      let count := last.toNat - first.toNat + 1
      let items := (List.range count).map fun k => SetItem.byte (UInt8.ofNat (first.toNat + k))
      return items ++ (← setItems text fuel more)
    | rest => return .byte first :: (← setItems text fuel rest)
where
  one (c : Char) (rest : List Char) : UInt8 × List Char :=
    match c, rest with
    | '\\', d :: more =>
      if isOctal d then
        let digits := ((d :: more).take 3).takeWhile isOctal
        (UInt8.ofNat (numberOf 8 digits), (d :: more).drop digits.length)
      else
        match Dialect.control? d with
        | some b => if d = 'e' then (101, more) else (b, more)
        | none => (UInt8.ofNat d.toNat, more)
    | c, rest => (UInt8.ofNat c.toNat, rest)

def upperBytes : List UInt8 := classBytes "upper".toList
def lowerBytes : List UInt8 := classBytes "lower".toList

def setBytes (size : Nat) (items : List SetItem) : List UInt8 :=
  let plain := items.flatMap fun
    | .byte b => [b]
    | .filler _ => []
    | .upper => upperBytes
    | .lower => lowerBytes
  items.flatMap fun
    | .byte b => [b]
    | .filler b => List.replicate (size - plain.length) b
    | .upper => upperBytes
    | .lower => lowerBytes

def squeeze (set : List UInt8) : Bytes → Bytes
  | a :: b :: rest =>
    if a = b && set.contains a then squeeze set (b :: rest) else a :: squeeze set (b :: rest)
  | rest => rest

def tr : Utility := fun args => do
  let (given, sets) ← match (Known.mk "cCdst".toList [("complement", 'c'), ("delete", 'd'),
      ("squeeze-repeats", 's'), ("truncate-set1", 't')] false).read (args.length + 1) args with
    | .ok result => pure result
    | .error text => misused 1 text
  let hint : Work Unit := do
    tell ("Try '" ++ (← get).name ++ " --help' for more information.")
    quit 1
  let needsTwo := !given.has 'd' && !given.has 's'
  match sets with
  | [] => misused 1 "missing operand"
  | [first] =>
    if needsTwo then do
      complain ("missing operand after " ++ Quote.escaped first)
      tell "Two strings must be given when translating."
      hint
    else if given.has 'd' && given.has 's' then do
      complain ("missing operand after " ++ Quote.escaped first)
      tell "Two strings must be given when both deleting and squeezing repeats."
      hint
  | [_, second] =>
    if given.has 'd' && !given.has 's' then do
      complain ("extra operand " ++ Quote.escaped second)
      tell "Only one string may be given when deleting without squeezing repeats."
      hint
  | _ :: _ :: extra :: _ => misused 1 ("extra operand " ++ Quote.escaped extra)
  let items (text : String) : Work (List SetItem) := do
    let chars := widen (bytesOf text)
    match setItems text (chars.length + 1) chars with
    | .ok items => return items
    | .error message => fail 1 message
  let first := setBytes 0 (← items (sets.headD ""))
  let complemented := given.has 'c' || given.has 'C'
  let first := if complemented then
    ((List.range 256).map UInt8.ofNat).filter (!first.contains ·) else first
  let second := setBytes first.length (← items ((sets.drop 1).headD ""))
  if needsTwo && second.isEmpty && !first.isEmpty then
    fail 1 "when not truncating set1, string2 must be non-empty"
  let replaced (b : UInt8) : UInt8 :=
    match first.reverse.findIdx? (· = b) with
    | none => b
    | some k => (second[first.length - 1 - k]?).getD (second.getLastD b)
  let bytes ← input
  if given.has 'd' then
    let kept := bytes.filter (!first.contains ·)
    put (if given.has 's' then squeeze second kept else kept)
  else if sets.length = 1 then put (squeeze first bytes)
  else
    let written := bytes.map replaced
    put (if given.has 's' then squeeze second written else written)

structure Span where
  low : Nat
  high : Option Nat

def spans (what : String) : (fuel : Nat) → List Char → Except String (List Span)
  | 0, _ => .ok []
  | fuel + 1, text => do
    let item := text.takeWhile fun c => c ≠ ',' && c ≠ ' '
    let low := item.takeWhile Char.isDigit
    let numbered := if what = "field" then "fields are numbered from 1"
      else "byte/character positions are numbered from 1"
    let span ← match item.drop low.length with
      | [] =>
        if low.isEmpty then throw numbered
        else pure (Span.mk (numberOf 10 low) (some (numberOf 10 low)))
      | '-' :: high =>
        if !high.all Char.isDigit then
          throw ("invalid " ++ what ++ " range")
        else if low.isEmpty && high.isEmpty then throw "invalid range with no endpoint: -"
        else pure ⟨if low.isEmpty then 1 else numberOf 10 low,
          if high.isEmpty then none else some (numberOf 10 high)⟩
      | _ =>
        throw ("invalid " ++ (if what = "field" then "field value " else "byte/character position ")
          ++ Quote.escaped (String.ofList item))
    if span.low = 0 then throw numbered
    if span.high.any (· < span.low) then throw "invalid decreasing range"
    match text.drop item.length with
    | [] => return [span]
    | _ :: rest => return span :: (← spans what fuel rest)

def cut : Utility := fun args => do
  let (given, paths) ← options "b:c:d:f:nsz^:!" [("bytes", 'b'), ("characters", 'c'),
    ("delimiter", 'd'), ("fields", 'f'), ("only-delimited", 's'), ("complement", '!'),
    ("output-delimiter", '^'), ("zero-terminated", 'z')] args 1
  let lists := given.filter fun p => p.1 = 'b' || p.1 = 'c' || p.1 = 'f'
  match lists with
  | [] => misused 1 "you must specify a list of bytes, characters, or fields"
  | _ :: _ :: _ => misused 1 "only one list may be specified"
  | [(letter, text)] => do
    let delimiter ← match given.value? 'd' with
      | none => pure (9 : UInt8)
      | some d =>
        match bytesOf d with
        | [b] => pure b
        | [] => pure 0
        | _ => misused 1 "the delimiter must be a single character"
    let what := if letter = 'f' then "field" else "byte/character"
    let found ← match spans what (text.length + 1) text.toList with
      | .ok found => pure found
      | .error message => misused 1 message
    let isChosen (k : Nat) : Bool :=
      (found.any fun s => s.low ≤ k && s.high.all (k ≤ ·)) ≠ given.has '!'
    let pick {α : Type} (items : List α) : List α :=
      (items.zipIdx 1).filterMap fun (a, k) => if isChosen k then some a else none
    let glue := match given.value? '^' with
      | some d => bytesOf d
      | none => [delimiter]
    let line (bytes : Bytes) : Option Bytes :=
      if letter = 'f' then
        if bytes.contains delimiter then
          some (glue.intercalate (pick (fieldsOf (some delimiter) bytes)))
        else if given.has 's' then none
        else some bytes
      else some (pick bytes)
    (orDash paths).forM fun path => do
      match ← content path with
      | .ok bytes => put (unlines ((linesOf bytes).filterMap line))
      | .error e => complainOf (named path) e

end DeclBundle.Shell.Utility
