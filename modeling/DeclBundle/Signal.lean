namespace DeclBundle

structure Signal where
  number : Nat
  deriving DecidableEq, Repr

namespace Signal

def names : List String :=
  ["HUP", "INT", "QUIT", "ILL", "TRAP", "ABRT", "BUS", "FPE", "KILL", "USR1", "SEGV", "USR2",
    "PIPE", "ALRM", "TERM", "STKFLT", "CHLD", "CONT", "STOP", "TSTP", "TTIN", "TTOU", "URG",
    "XCPU", "XFSZ", "VTALRM", "PROF", "WINCH", "IO", "PWR", "SYS"]

def name? (s : Signal) : Option String :=
  if s.number = 0 then none else names[s.number - 1]?

def ofName? (name : String) : Option Signal :=
  if name = "POLL" then some ⟨29⟩
  else (names.idxOf? name).map fun k => ⟨k + 1⟩

def kill : Signal := ⟨9⟩

def isIgnored (s : Signal) : Bool :=
  [17, 18, 23, 28].contains s.number

end Signal

inductive Termination
  | exited (status : UInt8)
  | killed (signal : Signal)
  deriving DecidableEq, Repr

namespace Termination

def isSuccess (t : Termination) : Bool :=
  t = exited 0

def text : Termination → String
  | exited status => "exit status: " ++ toString status.toNat
  | killed s =>
    "signal: " ++ toString s.number ++
      match s.name? with
      | some name => " (SIG" ++ name ++ ")"
      | none => ""

end Termination

end DeclBundle
