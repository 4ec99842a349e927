namespace DeclBundle

namespace Text

def size (text : List Char) : Nat :=
  text.foldl (fun n c => n + c.utf8Size) 0

end Text

structure Span where
  offset : Nat
  length : Nat
  deriving DecidableEq, Repr

def Span.between (whole : Nat) (before after : List Char) : Span :=
  ⟨whole - Text.size before, Text.size before - Text.size after⟩

end DeclBundle
