import DeclBundle.FileSystem.Write
import DeclBundle.Shell.Expansion

namespace DeclBundle.Shell

inductive Turn
  | write (stream : Nat) (opening : Opening) (path : String)
  | read (stream : Nat) (path : String)
  | close (stream : Nat)
  | copy (stream source : Nat)
  | document (stream : Nat) (content : Bytes)

namespace Turn

open Act

def stream : Turn → Nat
  | write stream _ _ => stream
  | read stream _ => stream
  | close stream => stream
  | copy stream _ => stream
  | document stream _ => stream

def ofRedirect (capture : Capture) : Redirect → Act Turn
  | .write stream opening target =>
    return .write stream opening (← Expansion.text capture .text target)
  | .read stream target => return .read stream (← Expansion.text capture .text target)
  | .copy stream source => do
    let text ← Expansion.text capture .text source
    match text.toList with
    | ['-'] => return .close stream
    | [c] => if c.isDigit then return .copy stream (digitValue c) else fail 2 unknownStream
    | _ => fail 2 unknownStream
  | .document stream number => do
    let content := ((← get).documents.lookup number).getD []
    return .document stream (bytesOf (← Expansion.text capture .document content))
where
  unknownStream : String := "Syntax error: Bad fd number"

def streamOf? (path : String) : Option Nat :=
  match path with
  | "/dev/stdin" => some 0
  | "/dev/stdout" => some 1
  | "/dev/stderr" => some 2
  | path =>
    let digits := path.toList.drop 8
    if "/dev/fd/".toList.isPrefixOf path.toList && isNumber (String.ofList digits) then
      some (numberOf 10 digits)
    else none

def refusal (creates : Bool) (path : String) (e : IoError) : String :=
  if creates then "cannot create " ++ path ++ ": " ++ obstacle "Directory nonexistent" e
  else "cannot open " ++ path ++ ": " ++ obstacle "No such file" e

def device? (creates : Bool) (path : String) : Act (Option (Except String Nat)) := do
  if path = "/dev/null" then return some (.ok (← addHandle .nothing))
  match streamOf? path with
  | none => return none
  | some stream =>
    match (← get).streams.lookup stream with
    | some handle => return some (.ok handle)
    | none => return some (.error (refusal creates path (.os .notFound)))

def openFile (opening : Opening) (path : String) : Act (Except String Nat) := do
  let fs ← files
  let handle (l : Location) : Handle :=
    .file l 0 (opening = .kept) true (opening = .appended)
  match fs.find true (pathOf path) with
  | .ok (l, .file _ mode) => do
    if opening = .emptied && (← hasOption 'C') then
      return .error (refusal true path (.os .alreadyExists))
    if opening = .emptied || opening = .forced then setFiles (fs.put l (.file .empty mode))
    return .ok (← addHandle (handle l))
  | .ok _ => return .error (refusal true path (.os .isDirectory))
  | .error _ =>
    match fs.write (pathOf path) .empty with
    | .error e => return .error (refusal true path e)
    | .ok made =>
      match made.find true (pathOf path) with
      | .ok (l, _) => do
        let mask := (← get).mask
        setFiles (made.put l (.file .empty (0o666 - (0o666 &&& mask))))
        return .ok (← addHandle (handle l))
      | .error e => return .error (refusal true path e)

def openToRead (path : String) : Act (Except String Nat) := do
  match (← files).find true (pathOf path) with
  | .ok (l, .file _ _) => return .ok (← addHandle (.file l 0 true false false))
  | .ok _ => return .ok (← addHandle .directory)
  | .error e => return .error (refusal false path e)

def opened (creates : Bool) (path : String) (work : Act (Except String Nat)) :
    Act (Except String Nat) := do
  match ← device? creates path with
  | some result => return result
  | none => work

def perform (t : Turn) : Act (Except String Unit) := do
  let turn (stream : Nat) (result : Except String Nat) : Act (Except String Unit) := do
    match result with
    | .ok handle => do
      setStream stream handle
      return .ok ()
    | .error text => return .error text
  match t with
  | .write stream opening path => turn stream (← opened true path (openFile opening path))
  | .read stream path => turn stream (← opened false path (openToRead path))
  | .close stream => do
    closeStream stream
    return .ok ()
  | .copy stream source =>
    match (← get).streams.lookup source with
    | some handle => turn stream (.ok handle)
    | none => do
      closeStream stream
      return .error (toString source ++ ": Bad file descriptor")
  | .document stream content => turn stream (.ok (← addHandle (.source content)))

def performAll : List Turn → Act Bool
  | [] => return true
  | t :: rest => do
    match ← t.perform with
    | .ok () => performAll rest
    | .error text => do
      complain text
      settle 2
      return false

end Turn

end DeclBundle.Shell
