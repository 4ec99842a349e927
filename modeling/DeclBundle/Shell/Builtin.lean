import DeclBundle.Shell.Condition
import DeclBundle.Shell.Field
import DeclBundle.Shell.Format
import DeclBundle.Shell.Machine
import DeclBundle.Shell.Mode
import DeclBundle.Shell.Program

namespace DeclBundle.Shell.Builtin

open Act

def sorted {α : Type} (items : List (String × α)) : List (String × α) :=
  items.mergeSort fun a b => decide (a.1 ≤ b.1)

def put (bytes : Bytes) : Act Unit := do
  if !(← write 1 bytes) then
    complain (((← get).speaker.getD "") ++ ": I/O error")
    settle 1

def say (text : String) : Act Unit := put (bytesOf text)

def letters (known : List Char) : List String → Act (List Char × List String)
  | [] => return ([], [])
  | arg :: rest => do
    match arg.toList with
    | ['-', '-'] => return ([], rest)
    | '-' :: c :: found => do
      match (c :: found).find? (!known.contains ·) with
      | some c => fail 2 ("Illegal option -" ++ String.ofList [c])
      | none => do
        let (more, others) ← letters known rest
        return (c :: found ++ more, others)
    | _ => return ([], arg :: rest)

def echoed : List String → Bytes × Bool
  | [] => ([], true)
  | word :: rest =>
    match Dialect.shellText.unescape 0 word.toList with
    | (bytes, .whole) =>
      let (others, whole) := echoed rest
      (bytes ++ (if rest.isEmpty then [] else [32]) ++ others, whole)
    | (bytes, _) => (bytes, false)

def echo (args : List String) : Act Unit := do
  let (noEnd, words) := match args with
    | "-n" :: rest => (true, rest)
    | args => (false, args)
  let (bytes, whole) := echoed words
  put (bytes ++ if whole && !noEnd then [lineFeed] else [])

def printf (args : List String) : Act Unit := do
  let (_, args) ← letters [] args
  match args with
  | [] => fail 2 "usage: printf format [arg ...]"
  | format :: args => do
    let p := Format.print .shellFormat format args
    p.messages.forM complain
    settle p.status
    put p.out

def test (closed : Bool) (args : List String) : Act Unit := do
  let args ← if !closed then pure args
    else if args.getLast? = some "]" then pure args.dropLast
    else fail 2 "missing ]"
  match Condition.holds (← files) args with
  | .ok value => settle (if value then 0 else 1)
  | .error problem => fail 2 problem.message

def tidied (current path : String) : String :=
  let isAbsolute := path.toList.head? = some '/'
  let slashes := (if isAbsolute then path else current).toList.takeWhile (· = '/')
  let whole := if isAbsolute then path else current ++ "/" ++ path
  let names := (whole.splitOn "/").foldl (fun names n =>
    if n = "" || n = "." then names else if n = ".." then names.drop 1 else n :: names) []
  (if slashes.length = 2 then "//" else "/") ++ "/".intercalate names.reverse

def moveTo (l : Location) (directory : String) : Act Unit := do
  setFiles { (← files) with cwd := l }
  let old := (← get).directory
  modify ({ · with directory := directory })
  for (name, value) in [("OLDPWD", old), ("PWD", directory)] do
    assign name value
    putVariable name { (← named? name).getD .fresh with exported := true }

def cd (args : List String) : Act Unit := do
  let (given, args) ← letters ['L', 'P'] args
  let physical := given.getLast? = some 'P'
  let home := (← value? "HOME").getD ""
  let (target, shows) ← match args with
    | [] => pure (home, false)
    | "-" :: _ => do pure ((← value? "OLDPWD").getD "", true)
    | path :: _ => pure (path, false)
  if target = "" then return
  let current := (← get).directory
  let elsewhere := (((← value? "CDPATH").getD "").splitOn ":").filter (· ≠ "")
  let search := if target.toList.head? = some '/' || [".", ".."].contains
      ((target.splitOn "/").headD "") then [] else elsewhere
  let paths := search.map (fun d => (d ++ "/" ++ target, true)) ++ [(target, false)]
  let fs ← files
  let goal (path : String) : String := if physical then path else tidied current path
  let found := paths.findSome? fun (path, named) =>
    match fs.find true (pathOf path), fs.find true (pathOf (goal path)) with
    | .ok _, .ok (l, .directory _) => some (l, path, named)
    | _, _ => none
  match found with
  | none => fail 2 ("can't cd to " ++ target)
  | some (l, path, named) => do
    moveTo l (if physical then placeOf l else tidied current path)
    if shows || named then say ((← get).directory ++ "\n")

def pwd (args : List String) : Act Unit := do
  let (given, _) ← letters ['L', 'P'] args
  if given.getLast? = some 'P' then say (placeOf (← files).cwd ++ "\n")
  else say ((← get).directory ++ "\n")

def splitAssignment (text : String) : String × Option String :=
  let name := text.toList.takeWhile (· ≠ '=')
  match text.toList.drop name.length with
  | _ :: value => (String.ofList name, some (String.ofList value))
  | [] => (text, none)

def checkName (name : String) : Act Unit := do
  if !Shell.isName name.toList then fail 2 (name ++ ": bad variable name")

def shownVariable (title : String) (name : String) (v : Variable) : String :=
  title ++ " " ++ name ++
    (match v.value with
      | some value => "=" ++ inQuotes value
      | none => "") ++ "\n"

def declare (title : String) (isMarked : Variable → Bool) (mark : Variable → Variable)
    (args : List String) : Act Unit := do
  let (given, args) ← letters ['p'] args
  if args.isEmpty || !given.isEmpty then
    let marked := (← get).store.filter fun p => isMarked p.2
    say (String.join ((sorted marked).map fun (name, v) => shownVariable title name v))
  else
    args.forM fun arg => do
      let (name, value) := splitAssignment arg
      checkName name
      match value with
      | some value => assign name value
      | none => pure ()
      putVariable name (mark ((← named? name).getD .fresh))

def unset (args : List String) : Act Unit := do
  let (given, names) ← letters ['v', 'f'] args
  names.forM fun name => do
    if given.getLast? = some 'f' then
      modify fun m => { m with functions := m.functions.filter (·.1 ≠ name) }
    else
      checkName name
      if ((← named? name).map (·.constant)).getD false then fail 2 (name ++ ": is read only")
      forget name

def shift (args : List String) : Act Unit := do
  let n ← match args with
    | [] => pure 1
    | text :: _ => number text
  let m ← get
  if n > m.args.length then fail 2 "can't shift that many"
  set { m with args := m.args.drop n }

def shownVariables (m : Machine) : String :=
  String.join ((sorted m.store).filterMap fun (name, v) =>
    v.value.map fun value => name ++ "=" ++ inQuotes value ++ "\n")

def turn (on : Bool) (letter : Char) : Act Unit :=
  modify fun m =>
    let others := m.options.filter (· ≠ letter)
    { m with options := if on then letter :: others else others }

def listOptions (asCommands : Bool) : Act Unit := do
  let m ← get
  let shown (name : String) (isOn : Bool) : String :=
    if asCommands then "set " ++ (if isOn then "-o " else "+o ") ++ name ++ "\n"
    else name ++ String.ofList (List.replicate (16 - name.length) ' ') ++
      (if isOn then "on\n" else "off\n")
  let names := (optionLetters.map fun (c, name) => shown name (m.options.contains c)) ++
    [shown "nolog" false, shown "debug" false]
  say ((if asCommands then "" else "Current option settings\n") ++ String.join names)

def settable : List Char := "efImnsxvVECabup".toList

def setOptions (isSettable : Char → Bool) : (fuel : Nat) → List String →
    Act (Option (List String))
  | 0, _ => return none
  | _ + 1, [] => return none
  | fuel + 1, arg :: rest => do
    match arg.toList with
    | ['-'] => do
      turn false 'x'
      turn false 'v'
      return if rest.isEmpty then none else some rest
    | ['-', '-'] => return some rest
    | sign :: letters =>
      if sign ≠ '-' && sign ≠ '+' then return some (arg :: rest)
      let on := sign = '-'
      let named := letters.contains 'o'
      letters.forM fun c => do
        if c = 'o' then
          match rest with
          | [] => listOptions (!on)
          | name :: _ =>
            match optionLetters.find? (·.2 = name) with
            | some (c, _) => turn on c
            | none => fail 2 ("Illegal option " ++ (if on then "-o " else "+o ") ++ name)
        else if isSettable c then turn on c
        else fail 2 ("Illegal option -" ++ String.ofList [c])
      setOptions isSettable fuel (if named then rest.drop 1 else rest)
    | [] => return some (arg :: rest)

def setArguments (args : List String) : Act Unit := do
  if args.isEmpty then say (shownVariables (← get))
  else
    match ← setOptions settable.contains (args.length + 1) args with
    | some args => modify ({ · with args := args, optionIndex := 1, optionOffset := none })
    | none => pure ()

def umask (args : List String) : Act Unit := do
  let (given, args) ← letters ['S'] args
  let mask := (← get).mask
  match args with
  | [] =>
    if given.isEmpty then
      let digits := Nat.toDigits 8 mask
      say (String.ofList (List.replicate (4 - digits.length) '0' ++ digits) ++ "\n")
    else
      let part (shift : Nat) : String :=
        let bits := 7 - ((mask >>> shift) &&& 7)
        (if bits &&& 4 ≠ 0 then "r" else "") ++ (if bits &&& 2 ≠ 0 then "w" else "") ++
          (if bits &&& 1 ≠ 0 then "x" else "")
      say ("u=" ++ part 6 ++ ",g=" ++ part 3 ++ ",o=" ++ part 0 ++ "\n")
  | text :: _ =>
    if text.toList.head?.any Char.isDigit then
      match Mode.octal? text.toList with
      | some bits => modify ({ · with mask := bits &&& 0o777 })
      | none => fail 2 ("Illegal number: " ++ text)
    else
      match Mode.ofText? text with
      | some m => modify ({ · with mask := 0o777 - (m.apply false 0 (0o777 - mask)) &&& 0o777 })
      | none => fail 2 ("Illegal mode: " ++ text)

def readLine (raw : Bool) : List Letter → Bytes → List Letter × Bool × Bytes
  | line, [] => (line.reverse, false, [])
  | line, b :: rest =>
    if b = lineFeed then (line.reverse, true, rest)
    else if b = 92 && !raw then
      match rest with
      | [] => (line.reverse, false, [])
      | c :: rest =>
        if c = lineFeed then readLine raw line rest
        else readLine raw (⟨true, Char.ofNat c.toNat⟩ :: line) rest
    else if b = 0 then readLine raw line rest
    else readLine raw (⟨false, Char.ofNat b.toNat⟩ :: line) rest

def narrowed (letters : List Letter) : String := textOf (narrow (letters.map Letter.char))

def isSeparator (separators : List Char) (l : Letter) : Bool :=
  !l.quoted && separators.contains l.char

def isBlankSeparator (separators : List Char) (l : Letter) : Bool :=
  isSeparator separators l && Field.isBlank l.char

def atomOf (l : Letter) : Atom := if l.quoted then .char true l.char else .loose l.char

def shares (separators : List Char) : (count : Nat) → List Letter → List String
  | 0, _ => []
  | 1, line =>
    let line := line.dropWhile (isBlankSeparator separators)
    match Field.split separators .fresh (line.map atomOf) with
    | [] => [""]
    | [field] => [narrowed field]
    | _ => [narrowed (line.reverse.dropWhile (isBlankSeparator separators)).reverse]
  | count + 1, line =>
    let line := line.dropWhile (isBlankSeparator separators)
    let field := line.takeWhile (!isSeparator separators ·)
    let rest := (line.drop field.length).dropWhile (isBlankSeparator separators)
    let rest := match rest with
      | l :: after =>
        if isSeparator separators l && (rest.length = (line.drop field.length).length ||
          !Field.isBlank l.char) then after else rest
      | [] => []
    narrowed field :: shares separators count rest

def readOptions (raw awaited : Bool) : List String → Act (Bool × List String)
  | [] => return (raw, [])
  | arg :: rest =>
    if awaited then readOptions raw false rest
    else
      match arg.toList with
      | ['-', '-'] => return (raw, rest)
      | ['-', 'r'] => readOptions true false rest
      | ['-', 'p'] => readOptions raw true rest
      | '-' :: 'p' :: _ => readOptions raw false rest
      | '-' :: 'r' :: 'p' :: _ => readOptions true true rest
      | '-' :: c :: _ => fail 2 ("Illegal option -" ++ String.ofList [c])
      | _ => return (raw, arg :: rest)

def read (args : List String) : Act Unit := do
  let (raw, names) ← readOptions false false args
  if names.isEmpty then fail 2 "arg count"
  let (line, ended, rest) := readLine raw [] (← unread 0)
  leaveUnread 0 rest
  let separators := ((← value? "IFS").getD " \t\n").toList
  for (name, value) in names.zip (shares separators names.length line) do
    checkName name
    assign name value
  settle (if ended then 0 else 1)

inductive Choice
  | finished
  | found (letter : Char) (argument : String)
  | unknown (letter : Char)
  | lacking (letter : Char)

abbrev Finding := Choice × Nat × Option Nat

def nextOption (spec : List Char) (words : List String) (index offset : Nat) :
    List Char → Finding
  | [] => (.finished, index, none)
  | letter :: rest =>
    let onward := (index, some (offset + 1))
    match spec.idxOf? letter with
    | none => (.unknown letter, onward)
    | some k =>
      if letter = ':' then (.unknown letter, onward)
      else if spec[k + 1]? = some ':' then
        if !rest.isEmpty then (.found letter (String.ofList rest), index, none)
        else
          match words[index - 1]? with
          | some value => (.found letter value, index + 1, none)
          | none => (.lacking letter, index, none)
      else (.found letter "", onward)

def findOption (spec : List Char) (words : List String) (index : Nat) (offset : Option Nat) :
    Finding :=
  let left := match offset with
    | some n => if index ≤ 1 then [] else ((words[index - 2]?).getD "").toList.drop n
    | none => []
  match left with
  | c :: rest => nextOption spec words index (offset.getD 0) (c :: rest)
  | [] =>
    match ((words[index - 1]?).getD "").toList with
    | ['-', '-'] => (.finished, index + 1, none)
    | '-' :: c :: rest => nextOption spec words (index + 1) 1 (c :: rest)
    | _ => (.finished, index, none)

def getopts (args : List String) : Act Unit := do
  let (spec, name, words) ← match args with
    | spec :: name :: [] => do pure (spec.toList, name, (← get).args)
    | spec :: name :: words => pure (spec.toList, name, words)
    | _ => fail 2 "Usage: getopts optstring var [arg...]"
  let silent := spec.head? = some ':'
  let m ← get
  let (found, index, offset) := findOption spec words m.optionIndex m.optionOffset
  let tell (text : String) (letter : Char) : Act Unit := do
    if silent then assign "OPTARG" (String.ofList [letter])
    else
      let _ ← write 2 (bytesOf text)
      forget "OPTARG"
  checkName name
  match found with
  | .finished => do
    assign name "?"
    settle 1
  | .found letter argument => do
    assign "OPTARG" argument
    assign name (String.ofList [letter])
  | .unknown letter => do
    tell ("Illegal option -" ++ String.ofList [letter] ++ "\n") letter
    assign name "?"
  | .lacking letter => do
    tell ("No arg for -" ++ String.ofList [letter] ++ " option\n") letter
    assign name (if silent then ":" else "?")
  assign "OPTIND" (toString index)
  modify ({ · with optionIndex := index, optionOffset := offset })

def localVariables (args : List String) : Act Unit := do
  if (← get).locals.isEmpty then fail 2 "not in a function"
  args.forM fun arg => do
    let (name, value) := splitAssignment arg
    checkName name
    makeLocal name
    match value with
    | some value => assign name value
    | none => pure ()

def exitName : String := "EXIT"

def lastSignal : Nat := 64

def signalTitle (n : Nat) : String :=
  if n = 16 then "16"
  else if n = 34 then "RTMIN"
  else if n = lastSignal then "RTMAX"
  else if 34 < n && n < 50 then "RTMIN+" ++ toString (n - 34)
  else if 50 ≤ n && n < lastSignal then "RTMAX-" ++ toString (lastSignal - n)
  else ((Signal.mk n).name?).getD (toString n)

def signalName? (text : String) : Option String :=
  let upper := text.map Char.toUpper
  if isNumber text then
    match numberOf 10 text.toList with
    | 0 => some exitName
    | n => if n < 65 then some (signalTitle n) else none
  else if upper = exitName then some exitName
  else if (Signal.ofName? upper).isSome then some upper
  else none

def trap (args : List String) : Act Unit := do
  let (_, args) ← letters [] args
  let (action, names) := match args with
    | first :: second :: rest =>
      if first = "-" then (none, second :: rest)
      else if isNumber first && (signalName? first).isSome then (none, args)
      else (some first, second :: rest)
    | args => (none, args)
  let order (name : String) : Nat :=
    if name = exitName then 0 else ((Signal.ofName? name).map (·.number)).getD 65
  match names with
  | [] =>
    let traps := (← get).traps.mergeSort fun a b => order a.1 ≤ order b.1
    say (String.join (traps.map fun (name, action) =>
      "trap -- " ++ inQuotes action ++ " " ++ name ++ "\n"))
  | names => setAll action names
where
  setAll (action : Option String) : List String → Act Unit
    | [] => return
    | text :: rest => do
      match signalName? text with
      | none => do
        let _ ← write 2 (bytesOf ("trap: " ++ text ++ ": bad trap\n"))
        settle 1
      | some name => do
        modify fun m =>
          let others := m.traps.filter (·.1 ≠ name)
          { m with traps := match action with
            | some a => (name, a) :: others
            | none => others }
        setAll action rest

def killUsage : String :=
  "Usage: kill [-s sigspec | -signum | -sigspec] [pid | job]... or\nkill -l [exitstatus]"

def signalNumber? (text : String) : Option Nat :=
  if isNumber text then
    let n := numberOf 10 text.toList
    if n < 65 && (n > 0 || text = "0") then some n else none
  else (Signal.ofName? (text.map Char.toUpper)).map (·.number)

def send (signal : Nat) (target : String) : Act Bool := do
  let m ← get
  let process ← match target.toList with
    | '%' :: _ => fail 2 ("No such job: " ++ target)
    | '-' :: rest => number (String.ofList rest)
    | _ => number target
  let process := if process = 0 then m.mainProcess else process
  if process ≠ m.mainProcess && process ≠ m.process then return false
  if signal ≠ 0 then
    updateWorld fun w => { w with signals := w.signals ++ [(process, ⟨signal⟩)] }
  return true

def kill (args : List String) : Act Unit := do
  let (signal, lists, targets) ← match args with
    | [] => fail 2 killUsage
    | first :: rest =>
      match first.toList with
      | '-' :: name =>
        match signalNumber? (String.ofList name) with
        | some n => if n = 0 && rest.isEmpty then fail 2 killUsage else pure (some n, false, rest)
        | none =>
          match name, rest with
          | ['-'], rest => pure (some 15, false, rest)
          | ['l'], rest => pure (none, true, rest)
          | ['s'], name :: rest =>
            match signalNumber? name with
            | some n => pure (some n, false, if rest.head? = some "--" then rest.drop 1 else rest)
            | none => fail 2 ("invalid signal number or name: " ++ name)
          | ['s'], [] => fail 2 "No arg for -s option"
          | c :: _, _ => fail 2 ("Illegal option -" ++ String.ofList [c])
          | [], _ => pure (some 15, false, args)
      | _ => pure (some 15, false, args)
  if lists then
    match targets with
    | [] => say (String.join ("0\n" ::
        (List.range lastSignal).map fun k => signalTitle (k + 1) ++ "\n"))
    | text :: _ => do
      let n ← number text
      let reduced := if n > 128 then n - 128 else n
      if 0 < reduced && reduced < 65 then say (signalTitle reduced ++ "\n")
      else fail 2 ("invalid signal number or exit status: " ++ text)
  else
    if targets.isEmpty then fail 2 killUsage
    targets.forM fun target => do
      if !(← send (signal.getD 15) target) then
        complain "No such process\n"
        settle 1

def wait (args : List String) : Act Unit := do
  args.forM fun arg => do
    let process ← number arg
    match (← get).background.lookup process with
    | some status => settle status
    | none => settle 127

def exit (args : List String) : Act Unit := do
  match args with
  | [] =>
    match (← get).kept with
    | some status => settle status
    | none => pure ()
  | text :: _ => do
    let status ← number text
    settle status
    modify fun m => { m with kept := m.kept.map fun _ => status }
  throw .leave

def return_ (args : List String) : Act Unit := do
  match args with
  | [] => pure ()
  | text :: _ => do settle (← number text)
  throw .back

def leaveLoops (again : Bool) (args : List String) : Act Unit := do
  let n ← match args with
    | [] => pure 1
    | text :: _ => do
      let n ← number text
      if n = 0 then fail 2 ("Illegal number: " ++ text)
      pure n
  let loops := (← get).loops
  if loops > 0 then throw (.loop again (min n loops))

def keywords : List String :=
  ["!", "case", "do", "done", "elif", "else", "esac", "fi", "for", "if", "in", "then", "until",
    "while", "\x7b", "\x7d"]

def names : List String :=
  [".", ":", "[", "alias", "bg", "break", "cd", "chdir", "command", "continue", "echo", "eval",
    "exec", "exit", "export", "false", "fg", "getopts", "hash", "jobs", "kill", "local", "printf",
    "pwd", "read", "readonly", "return", "set", "shift", "test", "times", "trap", "true", "type",
    "ulimit", "umask", "unalias", "unset", "wait"]

def programPath? (name : String) : Act (Option String) := do
  let fs ← files
  if name.toList.contains '/' then
    return if (fs.find true (pathOf name)).toBool then some name else none
  match ← value? "PATH" with
  | none => return none
  | some directories =>
    return (Program.candidates directories name).find? fun p => fs.isFile (pathOf p)

def shownAlias (name text : String) : String := name ++ "=" ++ inQuotes text

def alias_ (args : List String) : Act Unit := do
  let known := (← get).aliases
  if args.isEmpty then
    let found := known.reverse.mergeSort fun a b => decide (rowOf a.1 ≤ rowOf b.1)
    say (String.join (found.map fun (name, text) => shownAlias name text ++ "\n"))
  args.forM fun arg => do
    let (name, value) := splitAssignment arg
    match value, known.lookup name with
    | some text, _ => modify fun m =>
      { m with aliases := (name, text) :: m.aliases.filter (·.1 ≠ name) }
    | none, some text => say (shownAlias name text ++ "\n")
    | none, none => do
      let _ ← write 2 (bytesOf ("alias: " ++ arg ++ " not found\n"))
      settle 1

def unalias (args : List String) : Act Unit := do
  let (given, names) ← letters ['a'] args
  if !given.isEmpty then modify ({ · with aliases := [] })
  else
    names.forM fun name => do
      if !(← get).aliases.any (·.1 = name) then
        let _ ← write 2 (bytesOf ("unalias: " ++ name ++ " not found\n"))
        settle 1
      modify fun m => { m with aliases := m.aliases.filter (·.1 ≠ name) }

def describe (brief : Bool) (name : String) : Act Unit := do
  let m ← get
  if keywords.contains name then
    say (if brief then name ++ "\n" else name ++ " is a shell keyword\n")
  else if let some text := m.aliases.lookup name then
    say (if brief then "alias " ++ shownAlias name text ++ "\n"
      else name ++ " is an alias for " ++ text ++ "\n")
  else if m.functions.any (·.1 = name) then
    say (if brief then name ++ "\n" else name ++ " is a shell function\n")
  else if names.contains name then
    say (if brief then name ++ "\n" else name ++ " is a " ++
      (if isSpecial name then "special " else "") ++ "shell builtin\n")
  else
    match m.hashed.lookup name, ← programPath? name with
    | some path, _ =>
      say (if brief then path ++ "\n" else name ++ " is a tracked alias for " ++ path ++ "\n")
    | none, some path => say (if brief then path ++ "\n" else name ++ " is " ++ path ++ "\n")
    | none, none => do
      if !brief then say (name ++ ": not found\n")
      settle 127

def hash (args : List String) : Act Unit := do
  let (given, names) ← letters ['r', 'v'] args
  if given.contains 'r' then modify ({ · with hashed := [] })
  else if names.isEmpty then
    say (String.join ((← get).hashed.map fun p => p.2 ++ "\n"))
  else
    names.forM fun name => do
      match ← programPath? name with
      | some path => modify fun m => { m with hashed := m.hashed ++ [(name, path)] }
      | none => do
        complain (name ++ ": not found")
        settle 1

def run (name : String) (args : List String) : Act Unit := do
  match name with
  | "true" | ":" | "jobs" => pure ()
  | "alias" => alias_ args
  | "unalias" => unalias args
  | "false" => settle 1
  | "echo" => echo args
  | "printf" => printf args
  | "test" => test false args
  | "[" => test true args
  | "cd" | "chdir" => cd args
  | "pwd" => pwd args
  | "export" => declare "export" (·.exported) ({ · with exported := true }) args
  | "readonly" => declare "readonly" (·.constant) ({ · with constant := true }) args
  | "unset" => unset args
  | "shift" => shift args
  | "set" => setArguments args
  | "umask" => umask args
  | "read" => read args
  | "getopts" => getopts args
  | "local" => localVariables args
  | "trap" => trap args
  | "kill" => kill args
  | "wait" => wait args
  | "exit" => exit args
  | "return" => return_ args
  | "break" => leaveLoops false args
  | "continue" => leaveLoops true args
  | "times" => say "0m0.000000s 0m0.000000s\n0m0.000000s 0m0.000000s\n"
  | "type" => args.forM (describe false)
  | "hash" => hash args
  | "ulimit" => if args.isEmpty then say "unlimited\n"
  | "fg" | "bg" => fail 2 "No current job"
  | _ => pure ()

end DeclBundle.Shell.Builtin
