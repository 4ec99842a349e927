namespace DeclBundle.Text

def replacement : Char := '\ufffd'

def isTail (b : UInt8) : Bool := 0x80 ≤ b && b ≤ 0xBF

def leading? (b : UInt8) : Option (Nat × UInt8 × UInt8) :=
  if 0xC2 ≤ b && b ≤ 0xDF then some (1, 0x80, 0xBF)
  else if b = 0xE0 then some (2, 0xA0, 0xBF)
  else if b = 0xED then some (2, 0x80, 0x9F)
  else if 0xE1 ≤ b && b ≤ 0xEF then some (2, 0x80, 0xBF)
  else if b = 0xF0 then some (3, 0x90, 0xBF)
  else if b = 0xF4 then some (3, 0x80, 0x8F)
  else if 0xF1 ≤ b && b ≤ 0xF3 then some (3, 0x80, 0xBF)
  else none

def leadingBits (follow : Nat) (b : UInt8) : Nat :=
  b.toNat % (1 <<< (6 - follow))

def tailBytes (follow : Nat) (low high : UInt8) : List UInt8 → List UInt8
  | [] => []
  | b :: rest => if low ≤ b && b ≤ high then b :: (rest.take (follow - 1)).takeWhile isTail else []

def firstChar (b : UInt8) (rest : List UInt8) : Char × Nat :=
  if b < 0x80 then (Char.ofNat b.toNat, 0)
  else
    match leading? b with
    | none => (replacement, 0)
    | some (follow, low, high) =>
      let tail := tailBytes follow low high rest
      if tail.length = follow then
        (Char.ofNat (tail.foldl (fun n t => 64 * n + t.toNat % 64) (leadingBits follow b)), follow)
      else (replacement, tail.length)

def charsAfter : (used : Nat) → List UInt8 → List Char
  | _, [] => []
  | used + 1, _ :: rest => charsAfter used rest
  | 0, b :: rest =>
    let (c, taken) := firstChar b rest
    c :: charsAfter taken rest

def lossy (bytes : ByteArray) : String :=
  String.ofList (charsAfter 0 bytes.data.toList)

end DeclBundle.Text
