import DeclBundle.Shell.Utility.Files

namespace DeclBundle.Shell.Utility

open Work

def isBlankByte (b : UInt8) : Bool := b = 32 || b = 9

def fieldsOf (separator : Option UInt8) (line : Bytes) : List Bytes :=
  match separator with
  | some s =>
    let (last, fields) := line.foldl (fun (field, fields) b =>
      if b = s then ([], field.reverse :: fields) else (b :: field, fields))
      (([] : Bytes), ([] : List Bytes))
    (last.reverse :: fields).reverse
  | none =>
    let (last, fields, _) := line.foldl (fun (field, fields, inWord) b =>
      if isBlankByte b && inWord then ([b], field.reverse :: fields, false)
      else (b :: field, fields, inWord || !isBlankByte b))
      (([] : Bytes), ([] : List Bytes), false)
    (last.reverse :: fields).reverse

def named (path : String) : String := Quote.ifNeeded path

def orDash (paths : List String) : List String := if paths.isEmpty then ["-"] else paths

def contents (paths : List String) : Work (List (String × Bytes)) :=
  (orDash paths).filterMapM fun path => do
    match ← content path with
    | .ok bytes => return some (path, bytes)
    | .error e => do
      complainOf (named path) e
      return none

def paddedLeft (width : Nat) (text : String) : String :=
  String.ofList (List.replicate (width - text.length) ' ') ++ text

def visible (b : UInt8) : Bytes :=
  let high : Bytes := if b ≥ 128 then [77, 45] else []
  let low := b % 128
  high ++ (if low < 32 then [94, low + 64] else if low = 127 then [94, 63] else [low])

structure Numbering where
  line : Nat
  atStart : Bool
  blanks : Nat

def decorated (given : Given) (s : Numbering) (bytes : Bytes) : Bytes × Numbering :=
  let ends := given.has 'E' || given.has 'A' || given.has 'e'
  let shows := given.has 'v' || given.has 'A' || given.has 'e' || given.has 't'
  let tabs := given.has 'T' || given.has 'A' || given.has 't'
  let byte (b : UInt8) : Bytes :=
    if b = 9 then (if tabs then [94, 73] else [b]) else if shows then visible b else [b]
  let (out, s) := bytes.foldl (fun (out, s) b =>
    let isBlank := s.atStart && b = lineFeed
    let blanks := if isBlank then s.blanks + 1 else if s.atStart then 0 else s.blanks
    let s := { s with blanks := blanks }
    if given.has 's' && isBlank && s.blanks > 1 then (out, s)
    else
      let numbers := s.atStart && (given.has 'b' && !isBlank || given.has 'n' && !given.has 'b')
      let head := if numbers then bytesOf (paddedLeft 6 (toString s.line) ++ "\t") else []
      let body := if b = lineFeed then (if ends then [36, b] else [b]) else byte b
      ((head ++ body) :: out,
        { s with line := if numbers then s.line + 1 else s.line, atStart := b = lineFeed }))
    (([] : List Bytes), s)
  (out.reverse.flatten, s)

def cat : Utility := fun args => do
  let (given, paths) ← options "AbeEnstTuv" [("show-all", 'A'), ("number-nonblank", 'b'),
    ("show-ends", 'E'), ("number", 'n'), ("squeeze-blank", 's'), ("show-tabs", 'T'),
    ("show-nonprinting", 'v')] args 1
  if !(← get).outputs.contains 1 then fail 1 "standard output: Bad file descriptor"
  let write (s : Numbering) (path : String) : Work Numbering := do
    match ← content path with
    | .error e => do
      complainOf (named path) e
      return s
    | .ok bytes => do
      let (bytes, s) := if given.isEmpty then (bytes, s) else decorated given s bytes
      put bytes
      flush
      return s
  let _ ← (orDash paths).foldlM write ⟨1, true, 0⟩

def count? (text : List Char) : Option Nat :=
  let digits := text.takeWhile Char.isDigit
  if digits.isEmpty then none
  else
    let n := numberOf 10 digits
    match String.ofList (text.drop digits.length) with
    | "" => some n
    | "b" => some (512 * n)
    | "k" | "K" | "KiB" => some (1024 * n)
    | "kB" | "KB" => some (1000 * n)
    | "M" | "MiB" => some (1024 * 1024 * n)
    | _ => none

def fullLines (bytes : Bytes) : List Bytes :=
  let lines := linesOf bytes
  if endsInLineFeed bytes then lines.map (· ++ [lineFeed])
  else lines.dropLast.map (· ++ [lineFeed]) ++ (lines.getLast?.toList)

structure Cut where
  bytes : Bool
  fromOther : Bool
  count : Nat

def Cut.head (c : Cut) (bytes : Bytes) : Bytes :=
  if c.bytes then bytes.take (if c.fromOther then bytes.length - c.count else c.count)
  else
    let lines := fullLines bytes
    (lines.take (if c.fromOther then lines.length - c.count else c.count)).flatten

def Cut.tail (c : Cut) (bytes : Bytes) : Bytes :=
  if c.bytes then bytes.drop (if c.fromOther then c.count - 1 else bytes.length - c.count)
  else
    let lines := fullLines bytes
    (lines.drop (if c.fromOther then c.count - 1 else lines.length - c.count)).flatten

def oldCount (sign : Char) (args : List String) : List String :=
  match args with
  | arg :: rest =>
    match arg.toList with
    | c :: d :: more =>
      let text := d :: more
      let digits := text.takeWhile Char.isDigit
      let keep := if sign = '+' then "+" else ""
      if c = sign && !digits.isEmpty then
        match text.drop digits.length with
        | [] => "-n" :: (keep ++ String.ofList digits) :: rest
        | ['c'] => "-c" :: (keep ++ String.ofList digits) :: rest
        | _ => args
      else args
    | _ => args
  | [] => []

def cutOf (given : Given) (other : Char) : Work Cut := do
  let wanted := given.reverse.find? fun p => p.1 = 'n' || p.1 = 'c'
  match wanted with
  | none => return ⟨false, false, 10⟩
  | some (letter, text) => do
    let isBytes := letter = 'c'
    let (fromOther, digits) := match text.toList with
      | c :: rest => if c = other then (true, rest) else if c = '-' || c = '+' then (false, rest)
        else (false, text.toList)
      | [] => (false, [])
    match count? digits with
    | some n => return ⟨isBytes, fromOther, n⟩
    | none =>
      fail 1 ("invalid number of " ++ (if isBytes then "bytes" else "lines") ++ ": " ++
        Quote.escaped text)

def partsOf (isHead : Bool) (args : List String) : Work Unit := do
  let (given, paths) ← options "c:n:qvzfs:F" [("lines", 'n'), ("bytes", 'c'), ("quiet", 'q'),
    ("silent", 'q'), ("verbose", 'v'), ("zero-terminated", 'z'), ("follow", 'f')] args 1
  let c ← cutOf given (if isHead then '-' else '+')
  let paths := orDash paths
  let headed := (paths.length > 1 && !given.has 'q') || given.has 'v'
  let write (isFirst : Bool) (path : String) : Work Bool := do
    let isDirectory := (← files).isDirectory (pathOf path)
    match ← content path with
    | .error e => do
      if isDirectory then complainOf ("error reading " ++ quoted path) e
      else complainOf ("cannot open " ++ quoted path ++ " for reading") e
      return isFirst
    | .ok bytes => do
      if headed then
        let name := if path = "-" then "standard input" else path
        say ((if isFirst then "" else "\n") ++ "==> " ++ name ++ " <==\n")
      let part := if isHead then c.head bytes else c.tail bytes
      put part
      if isHead && path = "-" && (← get).inputSize.isSome then
        modify ({ · with input := bytes.drop part.length })
      return false
  let _ ← paths.foldlM write true

def head : Utility := fun args => partsOf true (oldCount '-' args)

def tail : Utility := fun args => do
  let read := oldCount '-' (oldCount '+' args)
  if read ≠ args && args.length > 2 then
    let digit := String.ofList (((args.headD "").toList.drop 1).take 1)
    fail 1 ("option used in invalid context -- " ++ digit)
  partsOf false read

structure Counts where
  lines : Nat
  words : Nat
  chars : Nat
  bytes : Nat
  longest : Nat

namespace Counts

def isSpace (b : UInt8) : Bool := b = 32 || (9 ≤ b && b ≤ 13)

def of (bytes : Bytes) : Counts :=
  let (words, _) := bytes.foldl (fun (n, inWord) b =>
    if isSpace b then (n, false) else (if inWord then n else n + 1, true)) ((0 : Nat), false)
  { lines := bytes.count lineFeed
    words := words
    chars := bytes.length
    bytes := bytes.length
    longest := ((linesOf bytes).map List.length).foldl max 0 }

def add (a b : Counts) : Counts :=
  ⟨a.lines + b.lines, a.words + b.words, a.chars + b.chars, a.bytes + b.bytes,
    max a.longest b.longest⟩

def chosen (given : Given) (c : Counts) : List Nat :=
  let all := given.isEmpty
  (if all || given.has 'l' then [c.lines] else []) ++
    (if all || given.has 'w' then [c.words] else []) ++
    (if given.has 'm' then [c.chars] else []) ++ (if all || given.has 'c' then [c.bytes] else [])
    ++ (if given.has 'L' then [c.longest] else [])

end Counts

def wc : Utility := fun args => do
  let (given, paths) ← options "clmwL" [("bytes", 'c'), ("chars", 'm'), ("lines", 'l'),
    ("words", 'w'), ("max-line-length", 'L')] args 1
  let fs ← files
  let found ← (orDash paths).filterMapM fun path => do
    match ← content path with
    | .ok bytes => return some (path, Counts.of bytes)
    | .error e => do
      complainOf (named path) e
      return if fs.isDirectory (pathOf path) then some (path, Counts.of []) else none
  let total := (found.map Prod.snd).foldl Counts.add (Counts.of [])
  let inputSize := (← get).inputSize
  let isRegular (path : String) : Bool :=
    if path = "-" then inputSize.isSome else fs.isFile (pathOf path)
  let sizes := (orDash paths).filterMap fun path =>
    if path = "-" then inputSize
    else
      match fs.find true (pathOf path) with
      | .ok (_, .file content _) => some content.size
      | _ => none
  let widest := (toString (sizes.foldl (· + ·) 0)).length
  let one := paths.length ≤ 1 && (total.chosen given).length = 1
  let width := if one then 0
    else if (orDash paths).all fun p => isRegular p || !fs.exists? (pathOf p) && p ≠ "-" then widest
    else max 7 widest
  let line (name : String) (c : Counts) : Work Unit :=
    sayLine (" ".intercalate ((c.chosen given).map fun n => paddedLeft width (toString n)) ++
      (if name = "" then "" else " " ++ name))
  found.forM fun (path, c) => line (if paths.isEmpty then "" else path) c
  if paths.length > 1 then line "total" total

def tee : Utility := fun args => do
  let (given, paths) ← options "aip" [("append", 'a'), ("ignore-interrupts", 'i')] args 1
  let bytes ← input
  paths.forM fun path => do
    let before ← if given.has 'a' then do
        match ← content path with
        | .ok old => pure old
        | .error _ => pure []
      else pure []
    match ← save path (before ++ bytes) 0o666 with
    | .ok () => pure ()
    | .error e => complainOf (named path) e
  put bytes

def rev : Utility := fun paths => do
  for (_, bytes) in ← contents paths do
    let lines := (fullLines bytes).map fun line =>
      (line.filter (· ≠ lineFeed)).reverse ++ line.filter (· = lineFeed)
    put lines.flatten

def tac : Utility := fun paths => do
  for (_, bytes) in ← contents paths do
    put (fullLines bytes).reverse.flatten

def nl : Utility := fun args => do
  let (given, paths) ← options "b:w:s:v:n:" [] args 1
  let all := given.value? 'b' = some "a"
  let bytes := ((← contents paths).map Prod.snd).flatten
  let (lines, _) := (linesOf bytes).foldl (fun (lines, n) line =>
    if line.isEmpty && !all then (bytesOf "       " :: lines, n)
    else ((bytesOf (paddedLeft 6 (toString n) ++ "\t") ++ line) :: lines, n + 1))
    (([] : List Bytes), (1 : Nat))
  put (unlines lines.reverse)

def sideBySide (glue : Bytes) : (fuel : Nat) → List (List Bytes) → List Bytes
  | 0, _ => []
  | fuel + 1, columns =>
    if columns.all List.isEmpty then []
    else glue.intercalate (columns.map fun c => c.headD []) ::
      sideBySide glue fuel (columns.map List.tail)

def paste : Utility := fun args => do
  let (given, paths) ← options "d:sz" [("delimiters", 'd'), ("serial", 's')] args 1
  let glue := ((given.value? 'd').map fun d => (bytesOf d).take 1).getD [9]
  let columns := (← contents paths).map fun p => linesOf p.2
  if given.has 's' then put (unlines (columns.map glue.intercalate))
  else put (unlines (sideBySide glue ((columns.map List.length).foldl max 0 + 1) columns))

end DeclBundle.Shell.Utility
