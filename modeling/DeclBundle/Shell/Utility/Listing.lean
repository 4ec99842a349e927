import DeclBundle.Shell.Pattern
import DeclBundle.Shell.Utility.Files

namespace DeclBundle.Shell.Utility

open Work

def dirname : Utility := fun args => do
  let (given, paths) ← options "z" [("zero", 'z')] args 1
  if paths.isEmpty then misused 1 "missing operand"
  let ending := if given.has 'z' then "\x00" else "\n"
  paths.forM fun path => say (allButLast path ++ ending)

def withoutSuffix (name suffix : String) : String :=
  let name := name.toList
  let suffix := suffix.toList
  if suffix.isSuffixOf name && suffix ≠ name then
    String.ofList (name.take (name.length - suffix.length))
  else String.ofList name

def basename : Utility := fun args => do
  match (Known.mk "as:z".toList [("multiple", 'a'), ("suffix", 's'), ("zero", 'z')] false).read
      (args.length + 1) args with
  | .error text => misused 1 text
  | .ok (given, paths) => do
    let ending := if given.has 'z' then "\x00" else "\n"
    let several := given.has 'a' || given.has 's'
    match paths with
    | [] => misused 1 "missing operand"
    | [path] => say (withoutSuffix (lastName path) ((given.value? 's').getD "") ++ ending)
    | path :: suffix :: more =>
      if several then
        paths.forM fun path =>
          say (withoutSuffix (lastName path) ((given.value? 's').getD "") ++ ending)
      else
        match more with
        | extra :: _ => misused 1 ("extra operand " ++ Quote.escaped extra)
        | [] => say (withoutSuffix (lastName path) suffix ++ ending)

def pwd : Utility := fun args => do
  let (_, _) ← options "LP" [("logical", 'L'), ("physical", 'P')] args 1
  sayLine (placeOf (← files).cwd)

def canonical (fs : FileSystem) (mustExist mayLack : Bool) (path : String) :
    Except IoError Location :=
  match fs.locate true (pathOf path) with
  | .ok (.present l _) => .ok l
  | .ok (.absent l) => if mustExist then .error (.os .notFound) else .ok l
  | .error e => if mayLack && path ≠ "" then .ok (Path.locate fs.cwd (pathOf path)) else .error e

def readlink : Utility := fun args => do
  let (given, paths) ← options "fenmqsvz" [("canonicalize", 'f'), ("canonicalize-existing", 'e'),
    ("no-newline", 'n'), ("canonicalize-missing", 'm'), ("quiet", 'q'), ("silent", 's'),
    ("verbose", 'v'), ("zero", 'z')] args 1
  if paths.isEmpty then misused 1 "missing operand"
  let ending := if given.has 'n' && paths.length = 1 then "" else
    if given.has 'z' then "\x00" else "\n"
  paths.forM fun path => do
    let fs ← files
    if given.has 'f' || given.has 'e' || given.has 'm' then
      match canonical fs (given.has 'e') (given.has 'm') path with
      | .ok l => say (placeOf l ++ ending)
      | .error _ => settle 1
    else
      match fs.find false (pathOf path) with
      | .ok (_, .link target) => say (encoded target ++ ending)
      | _ => settle 1

def relative (base l : Location) : String :=
  let shared := ((base.zip l).takeWhile fun p => decide (p.1 = p.2)).length
  let names := List.replicate (base.length - shared) ".." ++ (l.drop shared).map nameOf
  if names.isEmpty then "." else "/".intercalate names

def realpath : Utility := fun args => do
  let (given, paths) ← options "emLPqsz^:" [("canonicalize-existing", 'e'),
    ("canonicalize-missing", 'm'), ("logical", 'L'), ("physical", 'P'), ("quiet", 'q'),
    ("strip", 's'), ("no-symlinks", 's'), ("relative-to", '^'), ("zero", 'z')] args 1
  if paths.isEmpty then misused 1 "missing operand"
  paths.forM fun path => do
    let fs ← files
    match canonical fs (given.has 'e') (given.has 'm') path with
    | .error e =>
      if given.has 'q' then settle 1 else complainOf (Quote.ifNeeded path) e
    | .ok l =>
      match given.value? '^' with
      | some base =>
        match canonical fs false true base with
        | .ok base => sayLine (relative base l)
        | .error e => complainOf (Quote.ifNeeded base) e
      | none => sayLine (placeOf l)

structure Listing where
  given : Given
  fs : FileSystem

namespace Listing

def isShown (s : Listing) (name : String) : Bool :=
  s.given.has 'a' || s.given.has 'A' || s.given.has 'f' || name.toList.head? != some '.'

def mark (s : Listing) (e : Entry) : String :=
  match e with
  | .directory _ => if s.given.has 'F' || s.given.has 'p' then "/" else ""
  | .link _ => if s.given.has 'F' then "@" else ""
  | .file _ mode => if s.given.has 'F' && mode &&& 0o111 ≠ 0 then "*" else ""

def letter : Entry → String
  | .directory _ => "d"
  | .link _ => "l"
  | .file _ _ => "-"

def bits : Entry → Nat
  | .directory mode => mode
  | .file _ mode => mode
  | .link _ => 0o777

def size : Entry → Nat
  | .directory _ => 4096
  | .file content _ => content.size
  | .link target => target.utf8ByteSize

def line (s : Listing) (name : String) (e : Entry) : String :=
  if s.given.has 'l' then
    let target := match e with
      | .link target => " -> " ++ encoded target
      | _ => ""
    letter e ++ Mode.letters (bits e) ++ " 1 root root " ++ toString (size e) ++
      " Jan  1 00:00 " ++ name ++ target
  else name ++ s.mark e

def arrange (s : Listing) (lines : List (String × Entry)) : List (String × Entry) :=
  let lines := lines.mergeSort fun a b => decide (a.1 ≤ b.1)
  let lines := if s.given.has 'S' then lines.mergeSort fun a b => size b.2 ≤ size a.2 else lines
  if s.given.has 'r' then lines.reverse else lines

def separator (s : Listing) : String := if s.given.has 'm' then ", " else "\n"

def names (s : Listing) (l : Location) : List (String × Entry) :=
  let own := if s.given.has 'a' || s.given.has 'f' then
    [(".", Entry.directory 0o755), ("..", Entry.directory 0o755)] else []
  own ++ (s.fs.children l).filterMap fun n =>
    if s.isShown (nameOf n) then (s.fs.get? (l ++ [n])).map (nameOf n, ·) else none

def usage (e : Entry) : Nat :=
  if e.isLink then 0 else (size e + 4095) / 4096 * 4

def block (s : Listing) (l : Location) : List String :=
  let found := s.names l
  let total := (found.map fun p => usage p.2).foldl (· + ·) 0
  (if s.given.has 'l' then ["total " ++ toString total] else []) ++
    (s.arrange found).map fun (name, e) => s.line name e

def blocks (s : Listing) : (depth : Nat) → String → Location → List (String × List String)
  | 0, _, _ => []
  | depth + 1, path, l =>
    let below := if s.given.has 'R' then
      ((s.arrange (s.names l)).filter fun (name, e) => e.isDirectory && name ≠ "." && name ≠ "..")
    else []
    (path, s.block l) :: below.flatMap fun (name, _) =>
      match Name.ofString? (decoded name) with
      | some n => s.blocks depth (Path.join ⟨path⟩ ⟨name⟩).text (l ++ [n])
      | none => []

end Listing

def ls : Utility := fun args => do
  let (given, paths) ← options "abcdfghiklmnopqrstuxABCDFGHLNQRSUXZ1w:I:" [("all", 'a'),
    ("almost-all", 'A'), ("directory", 'd'), ("recursive", 'R'), ("reverse", 'r'),
    ("classify", 'F'), ("human-readable", 'h'), ("size", 's'), ("inode", 'i')] args 2
  let fs ← files
  let s : Listing := ⟨given, fs⟩
  let paths := if paths.isEmpty then ["."] else paths
  let follow := !(given.has 'l' || given.has 'd' || given.has 'F')
  let found ← paths.filterMapM fun path => do
    match fs.find true (pathOf path), fs.find false (pathOf path) with
    | .ok (l, e), .ok (k, own) =>
      let through := follow || (e.isDirectory && !given.has 'd' && !given.has 'l')
      return some (path, if through then (l, e) else (k, own))
    | _, .ok (k, own) => return some (path, (k, own))
    | _, .error e => do
      complainOf ("cannot access " ++ quoted path) e
      settle 2
      return none
  let isOpened (e : Entry) : Bool := e.isDirectory && !given.has 'd'
  let plain := s.arrange ((found.filter fun p => !isOpened p.2.2).map fun p => (p.1, p.2.2))
  let directories := s.arrange ((found.filter fun p => isOpened p.2.2).map fun p => (p.1, p.2.2))
  let blocks := directories.flatMap fun (path, _) =>
    match fs.find true (pathOf path) with
    | .ok (l, _) => s.blocks (fs.height + 1) path l
    | .error _ => []
  let headed := paths.length > 1 || given.has 'R'
  let texts := (if plain.isEmpty then [] else [plain.map fun (name, e) => s.line name e]) ++
    blocks.map fun (path, lines) => (if headed then [path ++ ":"] else []) ++ lines
  let shown := texts.map fun lines =>
    if lines.isEmpty then "" else s.separator.intercalate lines ++ "\n"
  say ("\n".intercalate shown)

inductive Test
  | name (ignoresCase : Bool) (pattern : Pattern)
  | path (pattern : Pattern)
  | kind (letters : List Char)
  | empty
  | size (sign : Char) (count : Nat) (unit : Char)
  | mode (bits : Nat)
  | print (ending : String)
  | printFormat (format : String)
  | execute (command : List String)
  | gather (command : List String)
  | delete
  | prune
  | quit
  | truth (value : Bool)
  | not (test : Test)
  | and (first second : Test)
  | or (first second : Test)
  deriving Inhabited

namespace Test

def acts : Test → Bool
  | print _ | printFormat _ | execute _ | gather _ | delete | quit => true
  | not t => t.acts
  | and a b | or a b => a.acts || b.acts
  | _ => false

def patternOf (text : String) : Pattern :=
  Pattern.ofLetters (Pattern.unescape (text.toList.map (⟨false, ·⟩)))

abbrev Read := Except String (Test × List String)

def command : List String → Option (List String × Bool × List String)
  | [] => none
  | ";" :: rest => some ([], false, rest)
  | "\x7b\x7d" :: "+" :: rest => some ([], true, rest)
  | word :: rest => (command rest).map fun (words, gathers, rest) => (word :: words, gathers, rest)

def sizeOf? (text : String) : Option (Char × Nat × Char) :=
  let (sign, rest) := match text.toList with
    | '+' :: rest => ('+', rest)
    | '-' :: rest => ('-', rest)
    | rest => ('=', rest)
  let digits := rest.takeWhile Char.isDigit
  match digits, rest.drop digits.length with
  | [], _ => none
  | digits, [] => some (sign, numberOf 10 digits, 'b')
  | digits, [unit] => some (sign, numberOf 10 digits, unit)
  | _, _ => none

def withValue (test : String) (rest : List String) (next : String → Except String Test) : Read :=
  match rest with
  | [] => .error ("missing argument to \x60" ++ test ++ "'")
  | value :: rest => do return (← next value, rest)

def single (word : String) (rest : List String) : Read :=
  match word with
  | "-name" => withValue word rest fun v => .ok (name false (patternOf v))
  | "-iname" => withValue word rest fun v => .ok (name true (patternOf (v.map Char.toLower)))
  | "-path" | "-wholename" => withValue word rest fun v => .ok (path (patternOf v))
  | "-type" => withValue word rest fun v =>
    let letters := v.toList.filter (· ≠ ',')
    match letters.find? fun c => !"bcdpfls".toList.contains c with
    | some c => .error ("Unknown argument to -type: " ++ String.ofList [c])
    | none => .ok (kind letters)
  | "-size" => withValue word rest fun v =>
    match sizeOf? v with
    | some (sign, n, unit) => .ok (size sign n unit)
    | none => .error ("Invalid argument \x60" ++ v ++ "' to -size")
  | "-perm" => withValue word rest fun v =>
    match Mode.octal? v.toList with
    | some bits => .ok (mode bits)
    | none => .error ("invalid mode " ++ Quote.escaped v)
  | "-newer" => withValue word rest fun _ => .ok (truth false)
  | "-printf" => withValue word rest fun v => .ok (printFormat v)
  | "-empty" => .ok (empty, rest)
  | "-print" => .ok (print "\n", rest)
  | "-print0" => .ok (print "\x00", rest)
  | "-delete" => .ok (delete, rest)
  | "-prune" => .ok (prune, rest)
  | "-quit" => .ok (quit, rest)
  | "-true" | "-depth" | "-d" | "-xdev" | "-mount" => .ok (truth true, rest)
  | "-false" => .ok (truth false, rest)
  | "-maxdepth" | "-mindepth" => withValue word rest fun v =>
    if v ≠ "" && v.toList.all Char.isDigit then .ok (truth true)
    else .error ("Expected a positive decimal integer argument to " ++ word ++ ", but got " ++
      Quote.escaped v)
  | "-exec" | "-execdir" =>
    match command rest with
    | some (words, true, rest) => .ok (gather words, rest)
    | some (words, false, rest) => .ok (execute words, rest)
    | none => .error ("missing argument to \x60" ++ word ++ "'")
  | word =>
    if word.toList.head? = some '-' then .error ("unknown predicate \x60" ++ word ++ "'")
    else .error ("paths must precede expression: \x60" ++ word ++ "'")

mutual

def disjunction : (fuel : Nat) → List String → Read
  | 0, _ => .error "expression too deep"
  | fuel + 1, words => do
    let (a, rest) ← conjunction fuel words
    match rest with
    | "-o" :: rest | "-or" :: rest => do
      let (b, rest) ← disjunction fuel rest
      return (or a b, rest)
    | rest => return (a, rest)

def conjunction : (fuel : Nat) → List String → Read
  | 0, _ => .error "expression too deep"
  | fuel + 1, words => do
    let (a, rest) ← negation fuel words
    match rest with
    | "-a" :: rest | "-and" :: rest => do
      let (b, rest) ← conjunction fuel rest
      return (and a b, rest)
    | [] | "-o" :: _ | "-or" :: _ | ")" :: _ => return (a, rest)
    | rest => do
      let (b, rest) ← conjunction fuel rest
      return (and a b, rest)

def negation : (fuel : Nat) → List String → Read
  | 0, _ => .error "expression too deep"
  | fuel + 1, words => do
    match words with
    | [] => .error "expected an expression"
    | "!" :: rest | "-not" :: rest => do
      let (a, rest) ← negation fuel rest
      return (not a, rest)
    | "(" :: rest => do
      match ← disjunction fuel rest with
      | (a, ")" :: rest) => return (a, rest)
      | _ =>
        .error "invalid expression; I was expecting to find a ')' somewhere but did not see one."
    | word :: rest => single word rest

end

end Test

structure Visit where
  path : String
  place : Location
  entry : Entry

structure Search where
  pruned : Bool
  finished : Bool
  gathered : List String

def Visit.name (v : Visit) : String := lastName v.path

def kindLetter : Entry → Char
  | .file _ _ => 'f'
  | .directory _ => 'd'
  | .link _ => 'l'

def filled (path : String) (words : List String) : List String :=
  words.map fun word => path.intercalate (word.splitOn "\x7b\x7d")

def printed (v : Visit) : (fuel : Nat) → List Char → String
  | 0, _ => ""
  | _ + 1, [] => ""
  | fuel + 1, '%' :: 'f' :: rest => v.name ++ printed v fuel rest
  | fuel + 1, '%' :: 'p' :: rest => v.path ++ printed v fuel rest
  | fuel + 1, '%' :: 'h' :: rest => allButLast v.path ++ printed v fuel rest
  | fuel + 1, '%' :: 's' :: rest => toString (Listing.size v.entry) ++ printed v fuel rest
  | fuel + 1, '%' :: 'y' :: rest => String.ofList [kindLetter v.entry] ++ printed v fuel rest
  | fuel + 1, '%' :: '%' :: rest => "%" ++ printed v fuel rest
  | fuel + 1, '\\' :: 'n' :: rest => "\n" ++ printed v fuel rest
  | fuel + 1, '\\' :: 't' :: rest => "\t" ++ printed v fuel rest
  | fuel + 1, '\\' :: '0' :: rest => "\x00" ++ printed v fuel rest
  | fuel + 1, '\\' :: '\\' :: rest => "\\" ++ printed v fuel rest
  | fuel + 1, c :: rest => String.ofList [c] ++ printed v fuel rest

def isOfSize (sign : Char) (count : Nat) (unit : Char) (bytes : Nat) : Bool :=
  let scale := match unit with
    | 'c' => 1
    | 'k' => 1024
    | 'M' => 1024 * 1024
    | _ => 512
  let n := (bytes + scale - 1) / scale
  match sign with
  | '+' => n > count
  | '-' => n < count
  | _ => n = count

def started (start : Start) (command : List String) : Work Nat := do
  match ← start command with
  | .ok ending => return statusOf ending
  | .error e => do
    complainOf (Quote.escaped (command.headD "")) e
    return 127

def Test.apply (start : Start) (v : Visit) : Test → StateT Search Work Bool
  | name ignoresCase p =>
    let text := if ignoresCase then v.name.map Char.toLower else v.name
    return p.accepts text.toList
  | path p => return p.accepts v.path.toList
  | kind letters => return letters.contains (kindLetter v.entry)
  | empty => do
    let fs ← files
    return match v.entry with
      | .file content _ => content.size = 0
      | .directory _ => !fs.isOccupied v.place
      | .link _ => false
  | size sign count unit => return isOfSize sign count unit (Listing.size v.entry)
  | mode bits => return Listing.bits v.entry = bits
  | print ending => do
    say (v.path ++ ending)
    return true
  | printFormat format => do
    say (printed v (format.length + 1) format.toList)
    return true
  | execute words => do
    flush
    return (← started start (filled v.path words)) = 0
  | gather _ => do
    modify fun s => { s with gathered := v.path :: s.gathered }
    return true
  | delete => do
    let (fs, removal) := (← files).remove (pathOf v.path)
    setFiles fs
    return !removal.isFailed
  | prune => do
    modify ({ · with pruned := true })
    return true
  | quit => do
    modify ({ · with finished := true })
    return true
  | truth value => return value
  | not t => return !(← t.apply start v)
  | and a b => do if ← a.apply start v then b.apply start v else return false
  | or a b => do if ← a.apply start v then return true else b.apply start v

def Test.gathers : Test → List (List String)
  | gather words => [words]
  | not t => t.gathers
  | and a b | or a b => a.gathers ++ b.gathers
  | _ => []

structure Extent where
  least : Nat
  most : Option Nat
  deepFirst : Bool

def visitAll (start : Start) (t : Test) (r : Extent) :
    (fuel depth : Nat) → Visit → StateT Search Work Unit
  | 0, _, _ => return
  | fuel + 1, depth, v => do
    if (← get).finished then return
    let look : StateT Search Work Unit := do
      if depth ≥ r.least && !(← get).finished then
        let _ ← t.apply start v
    let descend : StateT Search Work Unit := do
      let isPruned := (← get).pruned && !r.deepFirst
      modify ({ · with pruned := false })
      if v.entry.isDirectory && !isPruned && r.most.all (depth < ·) then
        let fs ← files
        let names := (fs.children v.place).mergeSort fun a b => decide (a.text ≤ b.text)
        names.forM fun n => do
          match (← files).get? (v.place ++ [n]) with
          | some e =>
            visitAll start t r fuel (depth + 1)
              ⟨(Path.join ⟨v.path⟩ ⟨nameOf n⟩).text, v.place ++ [n], e⟩
          | none => pure ()
    if r.deepFirst then
      descend
      look
    else
      look
      descend

def depthAfter (option : String) : List String → Option Nat
  | word :: value :: rest =>
    if word = option then some (numberOf 10 (value.toList.filter Char.isDigit))
    else depthAfter option (value :: rest)
  | _ => none

def startsExpression (word : String) : Bool :=
  word = "(" || word = "!" || (word.toList.head? = some '-' && word ≠ "-")

def find (start : Start) : Utility := fun args => do
  let args := args.dropWhile fun a => a = "-L" || a = "-P" || a = "-H"
  let paths := args.takeWhile (!startsExpression ·)
  let words := args.drop paths.length
  let paths := if paths.isEmpty then ["."] else paths
  let t ← if words.isEmpty then pure (Test.print "\n") else
    match Test.disjunction (3 * words.length + 3) words with
    | .error text => fail 1 text
    | .ok (t, rest) => do
      match rest with
      | [] => pure (if t.acts then t else .and t (.print "\n"))
      | _ => fail 1 "invalid expression; you have too many ')'"
  let r : Extent := ⟨(depthAfter "-mindepth" words).getD 0, depthAfter "-maxdepth" words,
    words.contains "-depth" || words.contains "-delete"⟩
  let visit (s : Search) (path : String) : Work Search := do
    match (← files).find false (pathOf path) with
    | .error e => do
      flush
      complainOf (Quote.escaped path) e
      return s
    | .ok (l, e) => do
      let ((), s) ← (visitAll start t r ((← files).height + 2) 0 ⟨path, l, e⟩).run s
      return s
  let s ← paths.foldlM visit ⟨false, false, []⟩
  t.gathers.forM fun words => do
    if !s.gathered.isEmpty then
      flush
      if (← started start (words ++ s.gathered.reverse)) ≠ 0 then settle 1

end DeclBundle.Shell.Utility
