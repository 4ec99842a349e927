import DeclBundle.CommandLine
import DeclBundle.Shell.Launch

namespace DeclBundle.Main

def home : Path := ⟨"/home"⟩

def emptyHome : FileSystem :=
  { Shell.Utility.installed with cwd := home.locate [] }

def tree (script : String) : FileSystem :=
  (Shell.launch "sh" ["-c", script] emptyHome).1

partial def readAll (input : IO.FS.Stream) (text : String) : IO String := do
  let line ← input.getLine
  if line.isEmpty then return text else readAll input (text ++ line)

end DeclBundle.Main

def main (args : List String) : IO UInt32 := do
  let script ← DeclBundle.Main.readAll (← IO.getStdin) ""
  let (_, ending) :=
    DeclBundle.CommandLine.run (DeclBundle.Main.tree script) DeclBundle.Shell.launch .inOrder args
  let printed := ending.toPrinted
  IO.print printed.out
  IO.eprint printed.err
  return ending.status.toUInt32
