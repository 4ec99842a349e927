import DeclBundle.Toml.Statement

namespace DeclBundle.Toml

open Statement

namespace Document

def openTable (span : Span) (key : Key) : Entries.Change
  | none => some (key, .table span .header [])
  | some (_, .table _ .implied inner) => some (key, .table span .header inner)
  | some _ => none

def addTable (span : Span) (key : Key) : Entries.Change
  | none => some (key, .tables span [.table span .header []])
  | some (first, .tables whole items) =>
    some (first, .tables whole (items ++ [.table span .header []]))
  | some _ => none

def assignInside (node : Node) (first : Key) (others : List Key) (_ : Key) : Entries.Change
  | none => none
  | some (key, there) => do
    return (key, ← Entries.inside (Entries.assign node first others) there)

structure Draft where
  entries : Entries
  header : Option (Key × List Key)

def Draft.add (d : Draft) : Statement → Option Draft
  | .assign first others node => do
    match d.header with
    | none => return ⟨← d.entries.assign node first others, none⟩
    | some (name, names) =>
      return ⟨← d.entries.reach (assignInside node first others) name names, d.header⟩
  | .table first others span => do
    return ⟨← d.entries.reach (openTable span) first others, some (first, others)⟩
  | .tables first others span => do
    return ⟨← d.entries.reach (addTable span) first others, some (first, others)⟩

def dropMark : List Char → List Char
  | '\ufeff' :: r => r
  | r => r

def parse? (text : String) : Option Entries := do
  let text := text.toList
  let body := dropMark text
  let statements ← readAll? (Text.size text) (body.length + 1) body
  return (← statements.foldlM Draft.add ⟨[], none⟩).entries

end Document

end DeclBundle.Toml
