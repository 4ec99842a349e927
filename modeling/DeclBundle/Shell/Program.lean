import DeclBundle.FileSystem.Write
import DeclBundle.Shell.Bytes

namespace DeclBundle.Shell.Program

def mark : Bytes := [0x7f, 0x45, 0x4c, 0x46]

def image (name : String) : ByteArray := ⟨(mark ++ bytesOf name).toArray⟩

structure Loaded where
  program : String
  command : List String

def isExecutable (mode : Nat) : Bool :=
  mode &&& 0o111 ≠ 0

def isBlank (b : UInt8) : Bool := b = 32 || b = 9

def trimmed (bytes : Bytes) : Bytes :=
  ((bytes.dropWhile isBlank).reverse.dropWhile isBlank).reverse

def headSize : Nat := 256

def interpreter? (content : Bytes) : Except Errno (String × Option String) := do
  let head := content.take headSize
  let line := (head.drop 2).takeWhile (· ≠ lineFeed)
  let ended := head.contains lineFeed
  let line := line.takeWhile (· ≠ 0)
  let body := line.dropWhile isBlank
  let name := body.takeWhile (!isBlank ·)
  if ended && name.isEmpty then throw .badFormat
  if !ended && content.length ≥ headSize && name.length = body.length then throw .badFormat
  let argument := trimmed (body.drop name.length)
  return (textOf name, if argument.isEmpty then none else some (textOf argument))

def maxDepth : Nat := 5

def load (fs : FileSystem) : (depth : Nat) → (path : String) → (command : List String) →
    Except IoError Loaded
  | depth, path, command => do
    match ← fs.find true (pathOf path) with
    | (_, .file content mode) => do
      if !isExecutable mode then throw (.os .denied)
      let bytes := content.data.toList
      if mark.isPrefixOf bytes then return ⟨textOf (bytes.drop mark.length), command⟩
      else if [0x23, 0x21].isPrefixOf bytes then
        let (interpreter, argument) ← (interpreter? bytes).mapError .os
        match depth with
        | 0 => throw (.os .linkLoop)
        | depth + 1 =>
          if interpreter = "" then throw (.os .denied)
          load fs depth interpreter
            (interpreter :: argument.toList ++ path :: command.drop 1)
      else throw (.os .badFormat)
    | _ => throw (.os .denied)

def asScript (path : String) (command : List String) : Loaded :=
  ⟨"sh", "/bin/sh" :: path :: command.drop 1⟩

def usualDirectories : String := "/usr/local/sbin:/usr/local/bin:/usr/sbin:/usr/bin:/sbin:/bin"

def candidates (directories name : String) : List String :=
  (directories.splitOn ":").map fun d => if d = "" then name else d ++ "/" ++ name

def loadFirst (fs : FileSystem) (scripts : Bool) (command : List String) (failure : Errno) :
    List String → Except IoError Loaded
  | [] => .error (.os failure)
  | path :: others =>
    match load fs maxDepth path command with
    | .ok loaded => .ok loaded
    | .error (.os number) =>
      if number = .badFormat && scripts then .ok (asScript path command)
      else if number = .denied then loadFirst fs scripts command .denied others
      else if number = .notFound || number = .notDirectory then
        loadFirst fs scripts command failure others
      else .error (.os number)
    | .error e => .error e

def search (fs : FileSystem) (scripts : Bool) (directories : Option String)
    (command : List String) : Except IoError Loaded :=
  let name := command.headD ""
  if name.toList.contains '/' then
    match load fs maxDepth name command with
    | .error (.os number) =>
      if number = .badFormat && scripts then .ok (asScript name command)
      else .error (.os number)
    | result => result
  else if name = "" then .error (.os .notFound)
  else if name.length > 255 then .error (.os .nameTooLong)
  else loadFirst fs scripts command .notFound (candidates (directories.getD "/bin:/usr/bin") name)

end DeclBundle.Shell.Program
