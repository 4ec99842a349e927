import DeclBundle.Text.Span

/-!
The tree of a TOML document. Every value knows where it is written, and every table how it came
about, which decides what may still be put into it.
-/

namespace DeclBundle.Toml

structure Key where
  text : String
  span : Span
  deriving DecidableEq, Repr

inductive Origin
  | header
  | implied
  | dotted
  | inline
  deriving DecidableEq, Repr

inductive Node
  | text (span : Span) (content : String)
  -- a number may be written like one and have no value
  | scalar (span : Span) (valued : Bool)
  | array (span : Span) (items : List Node)
  | tables (span : Span) (items : List Node)
  | table (span : Span) (origin : Origin) (entries : List (Key × Node))

mutual

def Node.isValued : Node → Bool
  | .text _ _ => true
  | .scalar _ valued => valued
  | .array _ items => allValued items
  | .tables _ items => allValued items
  | .table _ _ entries => entriesValued entries

def allValued : List Node → Bool
  | [] => true
  | node :: rest => node.isValued && allValued rest

def entriesValued : List (Key × Node) → Bool
  | [] => true
  | (_, node) :: rest => node.isValued && entriesValued rest

end

abbrev Entries := List (Key × Node)

def Node.span : Node → Span
  | text span _ => span
  | scalar span _ => span
  | array span _ => span
  | tables span _ => span
  | table span _ _ => span

namespace Entries

abbrev Change := Option (Key × Node) → Option (Key × Node)

def update (key : Key) (change : Change) : Entries → Option Entries
  | [] => do return [← change none]
  | (k, node) :: rest =>
    match compare key.text k.text with
    | .lt => do return (← change none) :: (k, node) :: rest
    | .eq => do return (← change (some (k, node))) :: rest
    | .gt => do return (k, node) :: (← update key change rest)

def fresh (key : Key) (node : Node) : Change
  | none => some (key, node)
  | some _ => none

def inside (change : Entries → Option Entries) : Node → Option Node
  | .table span origin inner => (change inner).map (.table span origin)
  | .tables span items =>
    match items.getLast? with
    | some (.table last origin inner) => do
      return .tables span (items.dropLast ++ [.table last origin (← change inner)])
    | _ => none
  | _ => none

def isOpen (last : Bool) : Node → Bool
  | .table _ .dotted _ => true
  | .table _ .implied _ => !last
  | .tables _ _ => !last
  | _ => false

/-- Puts a value under a key with dots: only tables that such keys made take further ones, and on
the way to them those that headers of longer or repeated names made. -/
def assign (node : Node) : (first : Key) → (others : List Key) → Entries → Option Entries
  | key, [], entries => entries.update key (fresh key node)
  | key, next :: others, entries =>
    entries.update key fun
      | none => do return (key, .table key.span .dotted (← assign node next others []))
      | some (k, there) =>
        if isOpen others.isEmpty there then do
          return (k, ← inside (assign node next others) there)
        else none

/-- Changes the value under the name of a header. On the way to it missing tables are made, and
tables in braces let nothing pass. -/
def reach (change : Key → Change) :
    (first : Key) → (others : List Key) → Entries → Option Entries
  | key, [], entries => entries.update key (change key)
  | key, next :: others, entries =>
    entries.update key fun
      | none => do return (key, .table key.span .implied (← reach change next others []))
      | some (_, .table _ .inline _) => none
      | some (k, there) => do return (k, ← inside (reach change next others) there)

end Entries

end DeclBundle.Toml
