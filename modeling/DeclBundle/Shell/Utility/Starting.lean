import DeclBundle.Shell.Program
import DeclBundle.Shell.Utility.Texts

namespace DeclBundle.Shell.Utility

open Work

def become (start : Start) (command : List String) : Work Unit := do
  match ← start command with
  | .ok (.exited status) => settle status.toNat
  | .ok (.killed s) => modify ({ · with killed := some s })
  | .error e => do
    complainOf (Quote.escaped (command.headD "")) e
    settle (if e.isNotFound || e = .os .notDirectory then 127 else 126)

def binding? (text : String) : Option (String × String) :=
  let name := text.toList.takeWhile (· ≠ '=')
  match text.toList.drop name.length with
  | _ :: value => some (String.ofList name, String.ofList value)
  | [] => none

def bind (env : List (String × String)) (name value : String) : List (String × String) :=
  if env.any (·.1 = name) then env.map fun p => if p.1 = name then (name, value) else p
  else env ++ [(name, value)]

def optionFailure (known : Known) (failure : Nat) (args : List String) :
    Work (Given × List String) :=
  match known.read (args.length + 1) args with
  | .ok result => return result
  | .error text => misused failure text

def envKnown : Known where
  letters := "iu:C:0S:v".toList
  names := [("ignore-environment", 'i'), ("unset", 'u'), ("chdir", 'C'), ("null", '0'),
    ("split-string", 'S')]
  anywhere := false

def env (start : Start) : Utility := fun args => do
  let (given, others) ← optionFailure envKnown 125 args
  let (clears, others) := match others with
    | "-" :: rest => (true, rest)
    | rest => (given.has 'i', rest)
  let words := (given.value? 'S').map fun text => text.splitOn " " |>.filter (· ≠ "")
  let others := words.getD [] ++ others
  let bindings := others.takeWhile fun a => (binding? a).isSome
  let command := others.drop bindings.length
  let inherited := (← get).environment
  let before := if clears then [] else inherited
  let kept := before.filter fun p => !given.any fun g => g.1 = 'u' && g.2 = p.1
  let environment := (bindings.filterMap binding?).foldl (fun e p => bind e p.1 p.2) kept
  modify ({ · with environment := environment })
  match given.value? 'C' with
  | none => pure ()
  | some path =>
    match (← files).find true (pathOf path) with
    | .ok (l, .directory _) => setFiles { (← files) with cwd := l }
    | .ok _ =>
      fail 125 ("cannot change directory to " ++ Quote.forShell path ++ ": Not a directory")
    | .error e =>
      fail 125 ("cannot change directory to " ++ Quote.forShell path ++ ": " ++ reason e)
  match command with
  | [] =>
    let ending := if given.has '0' then "\x00" else "\n"
    environment.forM fun (name, value) => say (name ++ "=" ++ value ++ ending)
  | command => become start command

def nohup (start : Start) : Utility := fun args => do
  match args with
  | [] => misused 125 "missing operand"
  | "--" :: command | command => become start command

def timeoutKnown : Known where
  letters := "s:k:v".toList
  names := [("signal", 's'), ("kill-after", 'k'), ("foreground", 'v'), ("preserve-status", 'v')]
  anywhere := false

def timeout (start : Start) : Utility := fun args => do
  let (_, others) ← optionFailure timeoutKnown 125 args
  match others with
  | _ :: c :: command => become start (c :: command)
  | _ => misused 125 "missing operand"

def niceKnown : Known := ⟨"n:".toList, [("adjustment", 'n')], false⟩

def nice (start : Start) : Utility := fun args => do
  let (_, command) ← optionFailure niceKnown 125 args
  if command.isEmpty then sayLine "0" else become start command

def which : Utility := fun names => do
  let j ← get
  let directories := (j.environment.lookup "PATH").getD ""
  names.forM fun name => do
    let paths := if name.toList.contains '/' then [name]
      else Program.candidates directories name
    let found := paths.find? fun p =>
      match j.files.find true (pathOf p) with
      | .ok (_, .file _ mode) => Program.isExecutable mode
      | _ => false
    match found with
    | some path => sayLine path
    | none => settle 1

def splitWords : (fuel : Nat) → (word : Option (List Char)) → List Char →
    Except String (List (List Char))
  | 0, _, _ => .ok []
  | _ + 1, word, [] => .ok word.toList
  | fuel + 1, word, c :: rest =>
    if c = ' ' || c = '\t' || c = '\n' then do
      return word.toList ++ (← splitWords fuel none rest)
    else if c = '\'' || c = '"' then
      let body := rest.takeWhile fun d => d ≠ c && d ≠ '\n'
      match rest.drop body.length with
      | d :: rest =>
        if d = c then splitWords fuel (some (word.getD [] ++ body)) rest
        else .error (unmatched c)
      | [] => .error (unmatched c)
    else if c = '\\' then
      match rest with
      | d :: rest => splitWords fuel (some (word.getD [] ++ [d])) rest
      | [] => splitWords fuel word []
    else splitWords fuel (some (word.getD [] ++ [c])) rest
where
  unmatched (c : Char) : String :=
    "unmatched " ++ (if c = '"' then "double" else "single") ++
      " quote; by default quotes are special to xargs unless you use the -0 option"

def splitAt (mark : UInt8) (bytes : Bytes) : List String :=
  let pieces := fieldsOf (some mark) bytes
  ((if pieces.getLast? = some [] then pieces.dropLast else pieces).map textOf)

def chunks (size : Nat) : (fuel : Nat) → List String → List (List String)
  | 0, _ => []
  | _ + 1, [] => []
  | fuel + 1, items => items.take size :: chunks size fuel (items.drop size)

def xargsKnown : Known where
  letters := "0a:d:I:L:l:n:P:rs:tx".toList
  names := [("null", '0'), ("arg-file", 'a'), ("delimiter", 'd'), ("replace", 'I'),
    ("max-lines", 'L'), ("max-args", 'n'), ("max-procs", 'P'), ("no-run-if-empty", 'r'),
    ("verbose", 't'), ("max-chars", 's'), ("exit", 'x')]
  anywhere := false

def delimiterOf (text : String) : UInt8 :=
  match text with
  | "\\n" => lineFeed
  | "\\t" => 9
  | "\\0" => 0
  | text => (bytesOf text).headD 0

def runEach (start : Start) (verbose : Bool) : List (List String) → Work Unit
  | [] => return
  | command :: others => do
    if verbose then tell (" ".intercalate command)
    flush
    match ← start command with
    | .error e => do
      complainOf (command.headD "") e
      settle (if e.isNotFound || e = .os .notDirectory then 127 else 126)
    | .ok (.exited status) =>
      if status = 255 then fail 124 (command.headD "" ++ ": exited with status 255; aborting")
      if status ≠ 0 then settle 123
      runEach start verbose others
    | .ok (.killed s) =>
      fail 125 (command.headD "" ++ ": terminated by signal " ++ toString s.number)

def xargs (start : Start) : Utility := fun args => do
  let args := args.map fun a => if a = "-i" then "-I\x7b\x7d" else a
  let (given, command) ← optionFailure xargsKnown 1 args
  let command := if command.isEmpty then ["echo"] else command
  let bytes ← match given.value? 'a' with
    | none => input
    | some path =>
      match ← content path with
      | .ok bytes => pure bytes
      | .error e => fail 1 ("Cannot open input file " ++ Quote.escaped path ++ ": " ++ reason e)
  let trimLeft (text : String) : String :=
    String.ofList (text.toList.dropWhile fun c => c = ' ' || c = '\t')
  let marked := if given.has '0' then some 0 else (given.value? 'd').map delimiterOf
  let lines := match marked with
    | some mark => splitAt mark bytes
    | none => ((splitAt lineFeed bytes).map trimLeft).filter (· ≠ "")
  let verbose := given.has 't'
  match given.value? 'I' with
  | some mark =>
    runEach start verbose (lines.map fun line =>
      command.map fun word => line.intercalate (word.splitOn mark))
  | none => do
    let words (text : List Char) : Work (List String) := do
      match splitWords (text.length + 1) none text with
      | .ok words => return words.map String.ofList
      | .error message => fail 1 message
    let size (letter : Char) : Option Nat := (given.value? letter).bind fun t => count? t.toList
    let groups ← match marked, size 'L' with
      | none, some n => do
        let lines ← lines.mapM fun line => words line.toList
        pure ((List.range ((lines.length + n - 1) / n)).map fun k =>
          ((lines.drop (k * n)).take n).flatten)
      | none, none => do
        let all ← words (textOf bytes).toList
        pure (match size 'n' with
          | some n => chunks (max n 1) (all.length + 1) all
          | none => if all.isEmpty then [] else [all])
      | some _, _ =>
        pure (match size 'n' with
          | some n => chunks (max n 1) (lines.length + 1) lines
          | none => if lines.isEmpty then [] else [lines])
    let groups := if groups.isEmpty && !given.has 'r' then [[]] else groups
    runEach start verbose (groups.map (command ++ ·))

end DeclBundle.Shell.Utility
