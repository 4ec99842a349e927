import DeclBundle.Shell.Job
import DeclBundle.Shell.Mode

namespace DeclBundle.Shell.Utility

open Work

def quoted (text : String) : String := Quote.forShell text

def lastName (path : String) : String :=
  let reversed := path.toList.reverse.dropWhile (· = '/')
  if reversed.isEmpty && path ≠ "" then "/"
  else String.ofList (reversed.takeWhile (· ≠ '/')).reverse

def allButLast (path : String) : String :=
  let reversed := path.toList.reverse.dropWhile (· = '/')
  match reversed.dropWhile (· ≠ '/') with
  | [] => if reversed.isEmpty && path ≠ "" then "/" else "."
  | rest =>
    let trimmed := rest.dropWhile (· = '/')
    if trimmed.isEmpty then "/" else String.ofList trimmed.reverse

def subtree (fs : FileSystem) (l : Location) : List (Location × Entry) :=
  let found := (fs.table.filter fun p => p.1.isBelow l).map fun p => (p.1.drop l.length, p.2)
  found.mergeSort fun a b =>
    decide (a.1.length < b.1.length) || (a.1.length = b.1.length &&
      !List.lex (b.1.map Name.text) (a.1.map Name.text) fun s t => decide (s < t))

def pathBelow (path : String) (names : Location) : String :=
  names.foldl (fun path n => (Path.join ⟨path⟩ ⟨nameOf n⟩).text) path

def plant (fs : FileSystem) (l : Location) (tree : List (Location × Entry)) : FileSystem :=
  tree.foldl (fun fs (names, e) =>
    if e.isDirectory && fs.isDirectoryAt (l ++ names) then fs else fs.put (l ++ names) e) fs

def bitsUnder (mask : Nat) (bits : Nat) : Nat := Mode.without bits mask

def newDirectory (path : String) (mode : Option Mode) : Work (Except IoError Unit) := do
  match (← files).makeDirectory (pathOf path) with
  | .error e => return .error e
  | .ok fs => do
    let mask := (← get).mask
    let bits := match mode with
      | some m => m.apply true mask 0o777
      | none => bitsUnder mask 0o777
    setFiles ((fs.setMode (pathOf path) bits).toOption.getD fs)
    return .ok ()

def ancestry (path : String) : List String :=
  let step (found : List String × List Char × Bool) (c : Char) : List String × List Char × Bool :=
    let (paths, before, inName) := found
    if c = '/' && inName then (String.ofList before.reverse :: paths, c :: before, false)
    else (paths, c :: before, c ≠ '/')
  let (paths, _, inName) := path.toList.foldl step ([], [], false)
  ((if inName then [path] else []) ++ paths).reverse

def makeAll (verbose : Bool) (mode : Option Mode) : List String → Work Unit
  | [] => return
  | path :: deeper => do
    let fs ← files
    if fs.isDirectory (pathOf path) then makeAll verbose mode deeper
    else
      match ← newDirectory path (if deeper.isEmpty then mode else none) with
      | .ok () => do
        if verbose then sayLine ("mkdir: created directory " ++ quoted path)
        makeAll verbose mode deeper
      | .error e =>
        let e := if e = .os .alreadyExists && !deeper.isEmpty then .os .notDirectory else e
        complainOf ("cannot create directory " ++ quoted path) e

def mkdir : Utility := fun args => do
  let (given, paths) ← options "m:pvZ"
    [("mode", 'm'), ("parents", 'p'), ("verbose", 'v'), ("context", 'Z')] args 1
  if paths.isEmpty then misused 1 "missing operand"
  let mode ← match given.value? 'm' with
    | none => pure none
    | some text =>
      match Mode.ofText? text with
      | some m => pure (some m)
      | none => fail 1 ("invalid mode " ++ quoted text)
  paths.forM fun path => do
    if given.has 'p' && path ≠ "" then makeAll (given.has 'v') mode (ancestry path)
    else
      match ← newDirectory path mode with
      | .error e => complainOf ("cannot create directory " ++ quoted path) e
      | .ok () => if given.has 'v' then sayLine ("mkdir: created directory " ++ quoted path)

def removeEmpty (tolerant : Bool) (verbose : Bool) : List String → Work Unit
  | [] => return
  | path :: above => do
    if verbose then sayLine ("rmdir: removing directory, " ++ quoted path)
    match (← files).removeDirectory (pathOf path) with
    | .ok fs => do
      setFiles fs
      removeEmpty tolerant verbose above
    | .error number => do
      let number := if path = "" then .notFound else number
      if !(tolerant && number = .notEmpty) then
        complain ("failed to remove " ++ quoted path ++ ": " ++ number.text)

def rmdir : Utility := fun args => do
  let (given, paths) ← options "pvi" [("parents", 'p'), ("verbose", 'v'),
    ("ignore-fail-on-non-empty", 'i')] args 1
  if paths.isEmpty then misused 1 "missing operand"
  paths.forM fun path => do
    let above := if given.has 'p' then ((ancestry path).dropLast.filter (· ≠ "/")).reverse else []
    removeEmpty (given.has 'i') (given.has 'v') (path :: above)

def tellRemoved (path : String) (l : Location) (e : Entry) (fs : FileSystem) : Work Unit := do
  let tell (path : String) (e : Entry) : Work Unit :=
    sayLine ("removed " ++ (if e.isDirectory then "directory " else "") ++ quoted path)
  (subtree fs l).reverse.forM fun (names, e) => tell (pathBelow path names) e
  tell path e

def agreed (question : String) : Work Bool := do
  let text := (← get).name ++ ": " ++ question ++ "? "
  modify fun j => { j with written := (2, bytesOf text) :: j.written }
  let bytes ← input
  let line := bytes.takeWhile (· ≠ lineFeed)
  modify ({ · with input := bytes.drop (line.length + 1) })
  return line.head? = some 121 || line.head? = some 89

def kindName : Entry → String
  | .file content _ => if content.isEmpty then "regular empty file" else "regular file"
  | .directory _ => "directory"
  | .link _ => "symbolic link"

def removeOne (given : Given) (path : String) : Work Unit := do
  let recursive := given.has 'r' || given.has 'R'
  let fs ← files
  let what := "cannot remove " ++ quoted path
  let name := lastName path
  match fs.find false (pathOf path) with
  | .error e => do
    let isGone := e.isNotFound || e = .os .notDirectory
    if !(given.has 'f' && isGone) then complainOf what e
  | .ok (l, e) => do
    if e.isDirectory && !recursive then
      if given.has 'd' then
        match fs.removeDirectory (pathOf path) with
        | .ok fs => setFiles fs
        | .error number => complain (what ++ ": " ++ number.text)
      else complain (what ++ ": " ++ Errno.isDirectory.text)
    else if e.isDirectory && (name = "." || name = "..") then
      complain ("refusing to remove '.' or '..' directory: skipping " ++ quoted path)
    else if l = [] then do
      complain "it is dangerous to operate recursively on '/'"
      complain "use --no-preserve-root to override this failsafe"
    else do
      if given.has 'i' then
        let question := if e.isDirectory && fs.isOccupied l then "descend into " else "remove "
        if !(← agreed (question ++ kindName e ++ " " ++ quoted path)) then return
      if given.has 'v' then tellRemoved path l e fs
      let (fs, removal) := fs.remove (pathOf path)
      setFiles fs
      match removal.error? with
      | some e => complainOf what e
      | none => pure ()

def rm : Utility := fun args => do
  let (given, paths) ← options "dfirRvIP" [("force", 'f'), ("recursive", 'r'), ("verbose", 'v'),
    ("dir", 'd'), ("interactive", 'I'), ("one-file-system", 'P'), ("no-preserve-root", 'P'),
    ("preserve-root", 'P')] args 1
  if paths.isEmpty && !given.has 'f' then misused 1 "missing operand"
  paths.forM (removeOne given)

structure Operands where
  sources : List String
  target : String
  inside : Bool

def operands (given : Given) (paths : List String) : Work Operands := do
  match given.value? 't' with
  | some target => do
    if paths.isEmpty then misused 1 "missing file operand"
    if !(← files).isDirectory (pathOf target) then
      let e := match (← files).find true (pathOf target) with
        | .error e => e
        | .ok _ => .os .notDirectory
      fail 1 ("target directory " ++ quoted target ++ ": " ++ reason e)
    return ⟨paths, target, true⟩
  | none =>
    match paths with
    | [] => misused 1 "missing file operand"
    | [path] => misused 1 ("missing destination file operand after " ++ quoted path)
    | paths => do
      let target := paths.getLastD ""
      let sources := paths.dropLast
      let isDirectory := (← files).isDirectory (pathOf target)
      if given.has 'T' then
        match sources with
        | [_] => return ⟨sources, target, false⟩
        | _ => misused 1 ("extra operand " ++ quoted target)
      if sources.length > 1 && !isDirectory then
        let e := match (← files).find true (pathOf target) with
          | .error e => e
          | .ok _ => .os .notDirectory
        fail 1 ("target " ++ quoted target ++ ": " ++ reason e)
      return ⟨sources, target, isDirectory⟩

def Operands.destination (o : Operands) (source : String) : String :=
  if o.inside then (Path.join ⟨o.target⟩ ⟨lastName source⟩).text else o.target

def copied (mask : Nat) (keepsMode : Bool) : Entry → Entry
  | .file content mode => .file content (if keepsMode then mode else bitsUnder mask mode)
  | .directory mode => .directory (if keepsMode then mode else bitsUnder mask mode)
  | .link target => .link target

def copyTree (given : Given) (source path : String) (l : Location) (e : Entry) : Work Unit := do
  let fs ← files
  let mask := (← get).mask
  let keeps := given.has 'a' || given.has 'p'
  let place : Except IoError Location :=
    match fs.find true (pathOf path) with
    | .ok (place, .directory _) => .ok place
    | .ok _ => .error (.os .alreadyExists)
    | .error _ =>
      fs.slot (pathOf (String.ofList (path.toList.reverse.dropWhile (· = '/')).reverse))
  match place with
  | .error (.os number) =>
    if number = .alreadyExists then
      complain ("cannot overwrite non-directory " ++ quoted path ++ " with directory " ++
        quoted source)
    else complain ("cannot create directory " ++ quoted path ++ ": " ++ number.text)
  | .error e => complainOf ("cannot create directory " ++ quoted path) e
  | .ok place => do
    let tree := subtree fs l
    let isInside := l.isPrefixOf place && l ≠ place
    let tree := if isInside then tree.filter (fun p => !place.isPrefixOf (l ++ p.1)) else tree
    if given.has 'v' then
      sayLine (quoted source ++ " -> " ++ quoted path)
      tree.forM fun (names, _) =>
        sayLine (quoted (pathBelow source names) ++ " -> " ++ quoted (pathBelow path names))
    setFiles (plant fs place (([], copied mask keeps e) ::
      tree.map fun (names, e) => (names, copied mask keeps e)))
    if isInside then
      complain ("cannot copy a directory, " ++ quoted source ++ ", into itself, " ++ quoted path)

def copyFile (given : Given) (source path : String) (l : Location) (e : Entry) : Work Unit := do
  let fs ← files
  let mask := (← get).mask
  let keeps := given.has 'a' || given.has 'p'
  match fs.find true (pathOf path) with
  | .ok (place, old) => do
    if place = l then
      complain (quoted source ++ " and " ++ quoted path ++ " are the same file")
    else if old.isDirectory then
      complain ("cannot overwrite directory " ++ quoted path ++ " with non-directory")
    else if given.has 'n' then return
    else if given.has 's' || given.has 'l' then
      complain ("cannot create " ++ (if given.has 's' then "symbolic" else "hard") ++ " link " ++
        quoted path ++ ": " ++ Errno.alreadyExists.text)
    else do
      if given.has 'v' then sayLine (quoted source ++ " -> " ++ quoted path)
      match e, old with
      | .file content mode, .file _ kept =>
        setFiles (fs.put place (.file content (if keeps then mode else kept)))
      | e, _ => setFiles (fs.put place e)
  | .error e' => do
    if path.toList.getLast? = some '/' && e' = .os .notDirectory then
      complainOf ("cannot stat " ++ quoted path) e'
    else
      match fs.slot (pathOf path) with
      | .error e' => complainOf ("cannot create regular file " ++ quoted path) e'
      | .ok place => do
        if given.has 'v' then sayLine (quoted source ++ " -> " ++ quoted path)
        setFiles (fs.put place (if given.has 's' then .link (decoded source) else copied mask keeps e))

def copyOne (given : Given) (o : Operands) (source : String) : Work Unit := do
  let fs ← files
  let recursive := given.has 'r' || given.has 'R' || given.has 'a'
  let follow := given.has 'L' || !(recursive || given.has 'P' || given.has 'd')
  let path := o.destination source
  match fs.find follow (pathOf source) with
  | .error e => complainOf ("cannot stat " ++ quoted source) e
  | .ok (l, e) =>
    if e.isDirectory then
      if recursive then copyTree given source path l e
      else complain ("-r not specified; omitting directory " ++ quoted source)
    else copyFile given source path l e

def cp : Utility := fun args => do
  let (given, paths) ← options "abdfHilLnprRsS:t:TuvxP" [("archive", 'a'), ("recursive", 'r'),
    ("force", 'f'), ("interactive", 'i'), ("no-clobber", 'n'), ("verbose", 'v'), ("update", 'u'),
    ("target-directory", 't'), ("no-target-directory", 'T'), ("link", 'l'), ("symbolic-link", 's'),
    ("dereference", 'L'), ("no-dereference", 'P'), ("one-file-system", 'x')] args 1
  let o ← operands given paths
  o.sources.forM (copyOne given o)

def moveOne (given : Given) (o : Operands) (source : String) : Work Unit := do
  let fs ← files
  let path := o.destination source
  let bare (path : String) : String :=
    String.ofList (path.toList.reverse.dropWhile (· = '/')).reverse
  match fs.find false (pathOf source) with
  | .error e => complainOf ("cannot stat " ++ quoted source) e
  | .ok (l, e) => do
    let what := "cannot move " ++ quoted source ++ " to " ++ quoted path
    match fs.slot (pathOf (if e.isDirectory then bare path else path)) with
    | .error e => complainOf what e
    | .ok place => do
      let old := fs.get? place
      if place = l then
        complain (quoted source ++ " and " ++ quoted path ++ " are the same file")
      else if place.isBelow l then
        complain ("cannot move " ++ quoted source ++ " to a subdirectory of itself, " ++
          quoted path)
      else if old.any Entry.isDirectory && !e.isDirectory then
        complain ("cannot overwrite directory " ++ quoted path ++ " with non-directory " ++
          quoted source)
      else if old.isSome && !old.any Entry.isDirectory && e.isDirectory then
        complain ("cannot overwrite non-directory " ++ quoted path ++ " with directory " ++
          quoted source)
      else if fs.isOccupied place then
        complainOf ("cannot overwrite " ++ quoted path) (.os .notEmpty)
      else if given.has 'n' && old.isSome then return
      else do
        if given.has 'v' then sayLine ("renamed " ++ quoted source ++ " -> " ++ quoted path)
        setFiles (plant ((fs.erase l).erase place) place (([], e) :: subtree fs l))

def mv : Utility := fun args => do
  let (given, paths) ← options "bfinS:t:TuvZ" [("force", 'f'), ("interactive", 'i'),
    ("no-clobber", 'n'), ("verbose", 'v'), ("update", 'u'), ("target-directory", 't'),
    ("no-target-directory", 'T'), ("backup", 'b')] args 1
  let o ← operands given paths
  o.sources.forM (moveOne given o)

def linkOne (given : Given) (o : Operands) (source : String) : Work Unit := do
  let fs ← files
  let path := o.destination source
  let hard := !given.has 's'
  match fs.find (given.has 'L') (pathOf source), hard with
  | .error e, true => complainOf ("failed to access " ++ quoted source) e
  | found, _ => do
    let isDirectory := match found with
      | .ok (_, e) => e.isDirectory
      | .error _ => false
    if hard && isDirectory then complain (source ++ ": hard link not allowed for directory")
    else do
      let kind := if hard then "hard" else "symbolic"
      let what := "failed to create " ++ kind ++ " link " ++ quoted path
      let fs := if given.has 'f' && !fs.isDirectory (pathOf path) then (fs.remove (pathOf path)).1
        else if given.has 'f' && given.has 'n' then
          match fs.find false (pathOf path) with
          | .ok (_, .link _) => (fs.remove (pathOf path)).1
          | _ => fs
        else fs
      match fs.slot (pathOf path) with
      | .error e => complainOf what e
      | .ok place => do
        if (fs.get? place).isSome then complainOf what (.os .alreadyExists)
        else do
          if given.has 'v' then
            sayLine (quoted path ++ (if hard then " => " else " -> ") ++ quoted source)
          match hard, found with
          | true, .ok (_, e) => setFiles (fs.put place e)
          | _, _ => setFiles (fs.put place (.link (decoded source)))

def ln : Utility := fun args => do
  let (given, paths) ← options "bdfFinLPrsS:t:Tv" [("symbolic", 's'), ("force", 'f'),
    ("no-dereference", 'n'), ("verbose", 'v'), ("no-target-directory", 'T'),
    ("target-directory", 't'), ("relative", 'r'), ("logical", 'L'), ("physical", 'P')] args 1
  match paths, given.value? 't' with
  | [path], none => linkOne given ⟨[path], ".", true⟩ path
  | _, _ => do
    let o ← operands given paths
    let isLink := match (← files).find false (pathOf o.target) with
      | .ok (_, .link _) => true
      | _ => false
    let o := if given.has 'n' && isLink then { o with inside := false } else o
    o.sources.forM (linkOne given o)

def touch : Utility := fun args => do
  let (given, paths) ← options "acd:fhmr:t:" [("no-create", 'c'), ("date", 'd'),
    ("reference", 'r'), ("no-dereference", 'h'), ("time", 't')] args 1
  if paths.isEmpty then misused 1 "missing file operand"
  paths.forM fun path => do
    let what := "cannot touch " ++ quoted path
    if (← files).exists? (pathOf path) || path = "-" then return
    else if given.has 'c' || given.has 'h' then return
    else
      match ← save path [] 0o666 with
      | .ok () => pure ()
      | .error e => complainOf what e

def shownMode (bits : Nat) : String :=
  let digits := Nat.toDigits 8 bits
  String.ofList (List.replicate (4 - digits.length) '0' ++ digits) ++ " (" ++
    Mode.letters bits ++ ")"

def tellMode (given : Given) (path : String) (before after : Entry) : Work Unit := do
  let bits : Entry → Nat
    | .file _ mode => mode
    | .directory mode => mode
    | .link _ => 0
  let what := "mode of " ++ quoted path
  if bits before ≠ bits after then
    if given.has 'v' || given.has 'c' then
      sayLine (what ++ " changed from " ++ shownMode (bits before) ++ " to " ++
        shownMode (bits after))
  else if given.has 'v' then sayLine (what ++ " retained as " ++ shownMode (bits before))

def setMode (given : Given) (mode : Mode) (path : String) : Work Unit := do
  let fs ← files
  let mask := (← get).mask
  let recursive := given.has 'R'
  match fs.find true (pathOf path) with
  | .error e => complainOf ("cannot access " ++ quoted path) e
  | .ok (l, e) => do
    let changed (l : Location) (fs : FileSystem) : FileSystem :=
      match fs.get? l with
      | some (.file content bits) => fs.put l (.file content (mode.apply false mask bits))
      | some (.directory bits) => fs.put l (.directory (mode.apply true mask bits))
      | _ => fs
    let below := if recursive && e.isDirectory then (subtree fs l).map Prod.fst else []
    ([] :: below).forM fun names => do
      let before ← files
      setFiles (changed (l ++ names) before)
      match before.get? (l ++ names), (← files).get? (l ++ names) with
      | some old, some new =>
        if !old.isLink then
          tellMode given (if names = [] then path else pathBelow path names) old new
      | _, _ => pure ()

def isModeArgument (arg : String) : Bool :=
  match arg.toList with
  | '-' :: c :: rest => (c :: rest).all fun c => "rwxXst,ugo+-=".toList.contains c
  | _ => false

def chmod : Utility := fun args => do
  let modes := args.filter isModeArgument
  let (given, others) ← options "Rcfv" [("recursive", 'R'), ("verbose", 'v'), ("changes", 'c'),
    ("silent", 'f'), ("quiet", 'f')] (args.filter (!isModeArgument ·)) 1
  let (text?, paths) := match modes, others with
    | m :: _, others => (some m, others)
    | [], m :: others => (some m, others)
    | [], [] => (none, [])
  match text? with
  | none => misused 1 "missing operand"
  | some text => do
    if paths.isEmpty then misused 1 ("missing operand after " ++ quoted text)
    match Mode.ofText? text with
    | none => misused 1 ("invalid mode: " ++ quoted text)
    | some mode => paths.forM (setMode given mode)

end DeclBundle.Shell.Utility
