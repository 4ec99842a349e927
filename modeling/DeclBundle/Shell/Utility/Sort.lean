import DeclBundle.Shell.Utility.Texts

namespace DeclBundle.Shell.Utility

open Work

def bytesLE : Bytes → Bytes → Bool
  | [], _ => true
  | _ :: _, [] => false
  | a :: as, b :: bs => a < b || (a = b && bytesLE as bs)

structure SortKey where
  start : Nat × Nat
  stop : Option (Nat × Nat)
  letters : List Char

def keyText (separator : Option UInt8) (k : SortKey) (line : Bytes) : Bytes :=
  let fields := fieldsOf separator line
  let glue (fs : List Bytes) : Bytes :=
    match separator with
    | some s => [s].intercalate fs
    | none => fs.flatten
  let (first, offset) := k.start
  let trimmed (b : Bytes) : Bytes := if k.letters.contains 'b' then b.dropWhile isBlankByte else b
  match k.stop with
  | none => (trimmed (glue (fields.drop (first - 1)))).drop (offset - 1)
  | some (last, 0) =>
    (trimmed (glue ((fields.take last).drop (first - 1)))).drop (offset - 1)
  | some (last, size) =>
    let whole := (fields.take (last - 1)).drop (first - 1)
    let part := ((fields.drop (last - 1)).headD []).take size
    (trimmed (glue (whole ++ [part]))).drop (offset - 1)

def leadingNumber (bytes : Bytes) : Int :=
  let chars := (widen bytes).dropWhile fun c => c = ' ' || c = '\t'
  let (negative, chars) := match chars with
    | '-' :: rest => (true, rest)
    | rest => (false, rest)
  let whole := chars.takeWhile Char.isDigit
  let fraction := match chars.drop whole.length with
    | '.' :: rest => rest.takeWhile Char.isDigit
    | _ => []
  let places := (fraction ++ List.replicate 9 '0').take 9
  let n : Int := numberOf 10 (whole ++ places)
  if negative then -n else n

def versionParts : (fuel : Nat) → List Char → List (List Char × Nat)
  | 0, _ => []
  | _ + 1, [] => []
  | fuel + 1, text =>
    let word := text.takeWhile (!Char.isDigit ·)
    let rest := text.drop word.length
    let digits := rest.takeWhile Char.isDigit
    (word, numberOf 10 digits) :: versionParts fuel (rest.drop digits.length)

def versionLE : List (List Char × Nat) → List (List Char × Nat) → Bool
  | [], _ => true
  | _ :: _, [] => false
  | (a, m) :: as, (b, n) :: bs =>
    if a ≠ b then decide (a ≤ b) else if m ≠ n then m < n else versionLE as bs

def textLE (letters : List Char) (a b : Bytes) : Bool :=
  if letters.contains 'n' || letters.contains 'g' || letters.contains 'h' then
    leadingNumber a ≤ leadingNumber b
  else if letters.contains 'V' then
    versionLE (versionParts (a.length + 1) (widen a)) (versionParts (b.length + 1) (widen b))
  else
    let fold (bytes : Bytes) : Bytes :=
      if letters.contains 'f' then narrow ((widen bytes).map Char.toUpper) else bytes
    bytesLE (fold a) (fold b)

def keysLE (separator : Option UInt8) : List SortKey → Bytes → Bytes → Bool
  | [], _, _ => true
  | k :: keys, a, b =>
    let x := keyText separator k a
    let y := keyText separator k b
    let below := textLE k.letters x y
    let above := textLE k.letters y x
    if below && above then keysLE separator keys a b
    else if k.letters.contains 'r' then above else below

def position? (text : List Char) : Option ((Nat × Nat) × List Char) :=
  let field := text.takeWhile Char.isDigit
  if field.isEmpty then none
  else
    match text.drop field.length with
    | '.' :: rest =>
      let byte := rest.takeWhile Char.isDigit
      some ((numberOf 10 field, numberOf 10 byte), rest.drop byte.length)
    | rest => some ((numberOf 10 field, 0), rest)

def sortKey? (text : String) : Option SortKey := do
  let (start, rest) ← position? text.toList
  let letters := rest.takeWhile Char.isAlpha
  match rest.drop letters.length with
  | [] => return ⟨start, none, letters⟩
  | ',' :: rest => do
    let (stop, more) ← position? rest
    return ⟨start, some stop, letters ++ more⟩
  | _ => none

def firstDisorder (le : Bytes → Bytes → Bool) : (number : Nat) → List Bytes → Option (Nat × Bytes)
  | n, a :: b :: rest => if le a b then firstDisorder le (n + 1) (b :: rest) else some (n + 1, b)
  | _, _ => none

def dropRepeats (same : Bytes → Bytes → Bool) : List Bytes → List Bytes
  | a :: b :: rest =>
    if same a b then dropRepeats same (a :: rest) else a :: dropRepeats same (b :: rest)
  | rest => rest
termination_by lines => lines.length

def sort : Utility := fun args => do
  let (given, paths) ← options "bcCdfghik:mMno:rRsS:t:T:uVz" [("reverse", 'r'), ("unique", 'u'),
    ("numeric-sort", 'n'), ("key", 'k'), ("field-separator", 't'), ("output", 'o'),
    ("stable", 's'), ("check", 'c'), ("ignore-case", 'f'), ("ignore-leading-blanks", 'b'),
    ("version-sort", 'V'), ("general-numeric-sort", 'g'), ("merge", 'm'),
    ("human-numeric-sort", 'h'), ("zero-terminated", 'z')] args 2
  let letters := (given.map Prod.fst).filter fun c => "bfgnrVh".toList.contains c
  let separator := (given.value? 't').bind fun t => (bytesOf t).head?
  let keys ← (given.filter (·.1 = 'k')).mapM fun (_, text) => do
    match sortKey? text with
    | some k => return if k.letters.isEmpty then { k with letters := letters } else k
    | none => fail 2 ("invalid number at field start: invalid count at start of " ++
        Quote.escaped text)
  let keys := if keys.isEmpty then [⟨(1, 0), none, letters⟩] else keys
  let fs ← files
  let pieces ← (orDash paths).mapM fun path => do
    match ← content path with
    | .ok bytes => return linesOf bytes
    | .error e =>
      if fs.isDirectory (pathOf path) then fail 2 ("read failed: " ++ named path ++ ": " ++ reason e)
      else fail 2 ("cannot read: " ++ named path ++ ": " ++ reason e)
  let lines := pieces.flatten
  let byKeys := keysLE separator keys
  let reversed := letters.contains 'r'
  let le (a b : Bytes) : Bool :=
    if byKeys a b && byKeys b a && !given.has 's' && !given.has 'u' then
      if reversed then bytesLE b a else bytesLE a b
    else byKeys a b
  if given.has 'c' || given.has 'C' then
    match firstDisorder le 1 lines with
    | none => return
    | some (n, line) => do
      if given.has 'c' then
        complain (paths.headD "-" ++ ":" ++ toString n ++ ": disorder: " ++ textOf line)
      quit 1
  let lines := if given.has 'm' then pieces.foldl (fun all piece => all.merge piece le) []
    else lines.mergeSort le
  let lines := if given.has 'u' then dropRepeats (fun a b => byKeys a b && byKeys b a) lines
    else lines
  match given.value? 'o' with
  | none => put (unlines lines)
  | some path =>
    match ← save path (unlines lines) 0o666 with
    | .ok () => pure ()
    | .error e => fail 2 ("open failed: " ++ named path ++ ": " ++ reason e)

def groups (same : Bytes → Bytes → Bool) : List Bytes → List (Bytes × Nat × List Bytes)
  | [] => []
  | line :: rest =>
    match groups same rest with
    | (next, n, lines) :: others =>
      if same line next then (line, n + 1, line :: lines) :: others
      else (line, 1, [line]) :: (next, n, lines) :: others
    | [] => [(line, 1, [line])]

def uniq : Utility := fun args => do
  let (given, paths) ← options "cdDf:is:uw:z" [("count", 'c'), ("repeated", 'd'), ("unique", 'u'),
    ("ignore-case", 'i'), ("skip-fields", 'f'), ("skip-chars", 's'), ("check-chars", 'w'),
    ("zero-terminated", 'z')] args 1
  match paths with
  | _ :: _ :: extra :: _ => misused 1 ("extra operand " ++ Quote.escaped extra)
  | _ => pure ()
  let number (c : Char) : Option Nat := (given.value? c).bind fun t => count? t.toList
  let key (line : Bytes) : Bytes :=
    let line := ((fieldsOf none line).drop ((number 'f').getD 0)).flatten
    let line := line.drop ((number 's').getD 0)
    let line := match number 'w' with
      | some n => line.take n
      | none => line
    if given.has 'i' then narrow ((widen line).map Char.toLower) else line
  match ← content (paths.headD "-") with
  | .error e => complainOf (named (paths.headD "-")) e
  | .ok bytes => do
    let found := groups (fun a b => key a = key b) (linesOf bytes)
    let kept := found.filter fun (_, n, _) =>
      if given.has 'd' || given.has 'D' then n > 1 else if given.has 'u' then n = 1 else true
    let shown := kept.flatMap fun (line, n, lines) =>
      if given.has 'D' then lines
      else if given.has 'c' then [bytesOf (paddedLeft 7 (toString n) ++ " ") ++ line]
      else [line]
    match paths with
    | [_, target] =>
      match ← save target (unlines shown) 0o666 with
      | .ok () => pure ()
      | .error e => complainOf (named target) e
    | _ => put (unlines shown)

end DeclBundle.Shell.Utility
