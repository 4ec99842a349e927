import DeclBundle.Config
import DeclBundle.Toml.Node

namespace DeclBundle

structure Manifest where
  inDir : Option Path
  outDir : Option Path
  outFileName : Option String
  clean : Option CleanPolicy
  compiler : CompilerSettings
  deriving DecidableEq, Repr

def Manifest.empty : Manifest :=
  ⟨none, none, none, none, .default⟩

namespace Manifest

open Toml

abbrev Fit (α : Type) := Except Span α

def fitText : Node → Fit String
  | .text _ content => return content
  | node => throw node.span

def fitTexts : Node → Fit (List String)
  | .array _ items => items.mapM fitText
  | .tables _ items => items.mapM fitText
  | node => throw node.span

def isEmpty : Node → Bool
  | .array _ items => items.isEmpty
  | .table _ _ entries => entries.isEmpty
  | _ => false

def fitPolicy : Node → Fit CleanPolicy
  | .text span name => (CleanPolicy.ofName? name).elim (throw span) pure
  | .table _ _ [(key, node)] =>
    match CleanPolicy.ofName? key.text with
    | none => throw key.span
    | some policy => if isEmpty node then return policy else throw node.span
  | node => throw node.span

def bundleField (m : Manifest) (key : Key) (node : Node) : Fit Manifest :=
  match key.text with
  | "in_dir" => return { m with inDir := some ⟨← fitText node⟩ }
  | "out_dir" => return { m with outDir := some ⟨← fitText node⟩ }
  | "out_file_name" => return { m with outFileName := some (← fitText node) }
  | "clean" => return { m with clean := some (← fitPolicy node) }
  | _ => throw key.span

def fitBundle (m : Manifest) : Node → Fit Manifest
  | .table _ _ entries => entries.foldlM (fun m (key, node) => bundleField m key node) m
  | .array span items => do
    match ← (items.take 3).mapM fitText, items.drop 3 with
    | [inDir, outDir, name], clean :: _ =>
      return { m with
        inDir := some ⟨inDir⟩, outDir := some ⟨outDir⟩, outFileName := some name,
        clean := some (← fitPolicy clean) }
    | _, _ => throw span
  | node => throw node.span

def compilerField (s : CompilerSettings) (key : Key) (node : Node) : Fit CompilerSettings :=
  match key.text with
  | "program" => return { s with program := ← fitText node }
  | "args" => return { s with args := ← fitTexts node }
  | _ => throw key.span

def fitCompiler (s : CompilerSettings) : Node → Fit CompilerSettings
  | .table _ _ entries => entries.foldlM (fun s (key, node) => compilerField s key node) s
  | .array _ [] => return s
  | .array _ [program] => return { s with program := ← fitText program }
  | .array _ (program :: args :: _) => return ⟨← fitText program, ← fitTexts args⟩
  | node => throw node.span

def field (m : Manifest) (key : Key) (node : Node) : Fit Manifest :=
  match key.text with
  | "bundle" => fitBundle m node
  | "compiler" => return { m with compiler := ← fitCompiler m.compiler node }
  | _ => throw key.span

def fit (document : Entries) : Fit Manifest :=
  document.foldlM (fun m (key, node) => field m key node) .empty

end Manifest

end DeclBundle
