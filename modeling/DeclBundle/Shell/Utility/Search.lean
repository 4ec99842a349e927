import DeclBundle.Shell.Regex
import DeclBundle.Shell.Utility.Texts

namespace DeclBundle.Shell.Utility

open Work

structure Wanted where
  expressions : List Regex
  ignoresCase : Bool
  wholeWord : Bool
  wholeLine : Bool

namespace Wanted

def quoteAll (text : List Char) : Regex :=
  text.foldr (fun c r => .both (.char c) r) .nothing

def find? (w : Wanted) (before : Option Char) (text : List Char) : Option Regex.Found :=
  let found := w.expressions.filterMap fun r => r.find? w.ignoresCase before text
  found.foldl (fun best f =>
    match best with
    | none => some f
    | some b =>
      if f.skipped.length < b.skipped.length ||
          (f.skipped.length = b.skipped.length && f.text.length > b.text.length) then some f
      else some b) none

def isFree (f : Regex.Found) (before : Option Char) : Bool :=
  let left := (f.skipped.getLast?.or before)
  !left.any Regex.isWordChar && !f.after.rest.head?.any Regex.isWordChar

def all (w : Wanted) : (fuel : Nat) → Option Char → List Char → List (List Char)
  | 0, _, _ => []
  | fuel + 1, before, text =>
    match w.find? before text with
    | none => []
    | some f =>
      let rest := f.after.rest
      let kept := (!w.wholeWord || isFree f before) &&
        (!w.wholeLine || (before.isNone && f.skipped.isEmpty && rest.isEmpty))
      if kept && !f.text.isEmpty then f.text :: all w fuel f.after.before rest
      else
        match text.drop f.skipped.length with
        | [] => if kept then [[]] else []
        | c :: rest =>
          let others := all w fuel (some c) rest
          if kept && others.isEmpty then [[]] else others

def accepts (w : Wanted) (line : List Char) : Bool :=
  !(w.all (line.length + 2) none line).isEmpty

end Wanted

def patternsOf (given : Given) (patterns : List String) : Work Wanted := do
  let texts := (patterns.flatMap (·.splitOn "\n")).map fun p => widen (bytesOf p)
  let expressions ← texts.mapM fun text =>
    if given.has 'F' then return Wanted.quoteAll text
    else
      match Regex.read? (given.has 'E' || given.has 'P') text with
      | .ok r => return r
      | .error message => fail 2 message
  return ⟨expressions, given.has 'i' || given.has 'y', given.has 'w', given.has 'x'⟩

def searched (deep : Bool) (paths : List String) : Work (List String) := do
  if !deep then return paths
  let fs ← files
  return paths.flatMap fun path =>
    match fs.find true (pathOf path) with
    | .ok (l, .directory _) =>
      let below := (subtree fs l).filter fun p => p.2.isFile
      (below.map fun p => pathBelow path p.1).mergeSort fun a b => decide (a ≤ b)
    | _ => [path]

def context (before after count : Nat) (hits : List Nat) : List Nat :=
  (List.range (count + 1)).filter fun n =>
    hits.any fun h => n ≤ h + after && h ≤ n + before && n ≥ 1

def grep (letters : List Char) : Utility := fun args => do
  let args := match args with
    | arg :: rest =>
      let digits := (arg.toList.drop 1)
      if arg.toList.head? = some '-' && !digits.isEmpty && digits.all Char.isDigit then
        "-C" :: String.ofList digits :: rest else args
    | [] => []
  let (given, others) ← options "A:B:C:EFGHLPRTUVZabce:f:hilm:noqrsuvwxyz" [("count", 'c'),
    ("ignore-case", 'i'), ("invert-match", 'v'), ("line-number", 'n'), ("quiet", 'q'),
    ("files-with-matches", 'l'), ("only-matching", 'o'), ("recursive", 'r'), ("regexp", 'e'),
    ("extended-regexp", 'E'), ("fixed-strings", 'F'), ("word-regexp", 'w'), ("line-regexp", 'x'),
    ("no-messages", 's'), ("max-count", 'm'), ("with-filename", 'H'), ("no-filename", 'h')] args 2
  let given : Given := letters.map (·, "") ++ given
  let named := (given.filter (·.1 = 'e')).map Prod.snd
  let (patterns, paths) := match named, others with
    | [], p :: rest => ([p], rest)
    | named, rest => (named, rest)
  if patterns.isEmpty && !given.has 'f' then
    tell "Usage: grep [OPTION]... PATTERNS [FILE]..."
    tell "Try 'grep --help' for more information."
    quit 2
  let fromFile ← match given.value? 'f' with
    | none => pure []
    | some path =>
      match ← content path with
      | .ok bytes => pure ((linesOf bytes).map textOf)
      | .error e => fail 2 (path ++ ": " ++ reason e)
  let w ← patternsOf given (patterns ++ fromFile)
  let deep := given.has 'r' || given.has 'R'
  let paths ← searched deep (if paths.isEmpty then (if deep then ["."] else ["-"]) else paths)
  let number (c : Char) : Nat := ((given.value? c).bind fun t => count? t.toList).getD 0
  let (before, after) := (max (number 'B') (number 'C'), max (number 'A') (number 'C'))
  let hasNames := (paths.length > 1 || deep || given.has 'H') && !given.has 'h'
  let mut hit := false
  let mut failed := false
  for path in paths do
    let shown := if path = "-" then "(standard input)" else path
    match ← content path with
    | .error e =>
      failed := true
      if !given.has 's' then complainOf path e
    | .ok bytes =>
      let lines := (linesOf bytes).map widen
      let hits := (lines.zipIdx 1).filterMap fun (line, n) =>
        if w.accepts line ≠ given.has 'v' then some n else none
      let hits := match given.value? 'm' with
        | some _ => hits.take (number 'm')
        | none => hits
      if !hits.isEmpty then hit := true
      let head (n : Nat) (mark : String) : String :=
        (if hasNames then shown ++ mark else "") ++
          if given.has 'n' then toString n ++ mark else ""
      if given.has 'q' then pure ()
      else if given.has 'l' then
        if !hits.isEmpty then sayLine shown
      else if given.has 'L' then
        if hits.isEmpty then sayLine shown
      else if given.has 'c' then
        sayLine ((if hasNames then shown ++ ":" else "") ++ toString hits.length)
      else
        let numbers := context before after lines.length hits
        let mut last := 0
        for (line, n) in lines.zipIdx 1 do
          if numbers.contains n then
            if (before > 0 || after > 0) && last > 0 && n > last + 1 then sayLine "--"
            last := n
            let mark := if hits.contains n then ":" else "-"
            if given.has 'o' then
              for found in w.all (line.length + 2) none line do
                if !found.isEmpty then
                  put (bytesOf (head n mark) ++ narrow found ++ [lineFeed])
            else put (bytesOf (head n mark) ++ narrow line ++ [lineFeed])
  settle (if hit && (given.has 'q' || !failed) then 0 else if failed then 2 else 1)

abbrev Value := Except String (String × List String)

def integer? (text : String) : Option Int :=
  match text.toList with
  | '-' :: digits =>
    if !digits.isEmpty && digits.all Char.isDigit then some (-(numberOf 10 digits : Int)) else none
  | digits => if !digits.isEmpty && digits.all Char.isDigit then some (numberOf 10 digits) else none

def isNothing (text : String) : Bool :=
  text = "" || (integer? text = some 0)

def withIntegers (a b : String) (f : Int → Int → Except String Int) : Except String String :=
  match integer? a, integer? b with
  | some m, some n => (f m n).map toString
  | _, _ => .error "non-integer argument"

def compareBy (sign : String) (o : Ordering) : Bool :=
  match sign with
  | "<" => o = .lt
  | "<=" => o ≠ .gt
  | "=" | "==" => o = .eq
  | "!=" => o ≠ .eq
  | ">=" => o ≠ .lt
  | _ => o = .gt

def matched (text pattern : String) : Except String String := do
  let r ← Regex.read? false (widen (bytesOf pattern))
  let hasGroup := ['\\', '('].isPrefixOf pattern.toList ||
    (pattern.splitOn "\\(").length > 1
  match r.matchAt? false ⟨none, widen (bytesOf text), []⟩ with
  | some q =>
    if hasGroup then return textOf (narrow ((q.groups.lookup 1).getD []))
    else return toString ((bytesOf text).length - q.rest.length)
  | none => return if hasGroup then "" else "0"

def expressionLevels : List (List String) :=
  [["|"], ["&"], ["<", "<=", "=", "==", "!=", ">=", ">"], ["+", "-"], ["*", "/", "%"], [":"]]

def combine (sign a b : String) : Except String String :=
  match sign with
  | "|" => .ok (if !isNothing a then a else if !isNothing b then b else "0")
  | "&" => .ok (if isNothing a || isNothing b then "0" else a)
  | "+" => withIntegers a b fun m n => .ok (m + n)
  | "-" => withIntegers a b fun m n => .ok (m - n)
  | "*" => withIntegers a b fun m n => .ok (m * n)
  | "/" => withIntegers a b fun m n =>
    if n = 0 then .error "division by zero" else .ok (m.tdiv n)
  | "%" => withIntegers a b fun m n =>
    if n = 0 then .error "division by zero" else .ok (m.tmod n)
  | ":" => matched a b
  | sign =>
    let o := match integer? a, integer? b with
      | some m, some n => compare m n
      | _, _ => compare a b
    .ok (if compareBy sign o then "1" else "0")

mutual

def binary : (fuel : Nat) → List (List String) → String → List String → Value
  | 0, _, _, _ => .error "syntax error"
  | fuel + 1, [], last, words => primary fuel last words
  | fuel + 1, signs :: tighter, last, words => do
    let (a, rest) ← binary fuel tighter last words
    further fuel signs tighter a rest

def further : (fuel : Nat) → List String → List (List String) → String → List String → Value
  | 0, _, _, _, _ => .error "syntax error"
  | fuel + 1, signs, tighter, a, words => do
    match words with
    | sign :: rest =>
      if signs.contains sign then
        let (b, rest) ← binary fuel tighter sign rest
        further fuel signs tighter (← combine sign a b) rest
      else return (a, words)
    | [] => return (a, [])

def primary : (fuel : Nat) → String → List String → Value
  | 0, _, _ => .error "syntax error"
  | fuel + 1, last, words => do
    match words with
    | [] => .error ("syntax error: missing argument after " ++ Quote.escaped last)
    | "(" :: rest => do
      match ← binary fuel expressionLevels "(" rest with
      | (a, ")" :: rest) => return (a, rest)
      | (_, []) => .error "syntax error: expecting ')' after '('"
      | (_, word :: _) => .error ("syntax error: expecting ')' instead of " ++ Quote.escaped word)
    | "+" :: word :: rest => return (word, rest)
    | "length" :: rest => do
      let (a, rest) ← primary fuel "length" rest
      return (toString (bytesOf a).length, rest)
    | "match" :: rest => do
      let (a, rest) ← primary fuel "match" rest
      let (b, rest) ← primary fuel "match" rest
      return (← matched a b, rest)
    | "index" :: rest => do
      let (a, rest) ← primary fuel "index" rest
      let (b, rest) ← primary fuel "index" rest
      let found := (bytesOf a).findIdx? fun c => (bytesOf b).contains c
      return (toString ((found.map (· + 1)).getD 0), rest)
    | "substr" :: rest => do
      let (a, rest) ← primary fuel "substr" rest
      let (i, rest) ← primary fuel "substr" rest
      let (n, rest) ← primary fuel "substr" rest
      match integer? i, integer? n with
      | some i, some n =>
        if i < 1 || n < 1 then return ("", rest)
        else return (textOf (((bytesOf a).drop (i.toNat - 1)).take n.toNat), rest)
      | _, _ => return ("", rest)
    | word :: rest => return (word, rest)

end

def expr : Utility := fun args => do
  let args := if args.head? = some "--" then args.drop 1 else args
  if args.isEmpty then misused 2 "missing operand"
  match binary (20 * (args.length + 1)) expressionLevels "" args with
  | .error message => fail 2 message
  | .ok (value, []) => do
    sayLine value
    settle (if isNothing value then 1 else 0)
  | .ok (_, word :: _) => fail 2 ("syntax error: unexpected argument " ++ Quote.escaped word)

end DeclBundle.Shell.Utility
