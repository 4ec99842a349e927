import DeclBundle.Declaration
import DeclBundle.Text.Blank

namespace DeclBundle.BundleName

open Declaration

inductive Fault
  | empty
  | notPlain
  | dots
  | nul
  deriving DecidableEq, Repr

def Fault.message : Fault → String
  | empty => "the bundle name is empty"
  | notPlain => "use a plain file name; the bundle is always written to out_dir"
  | dots => "'.' and '..' are not file names"
  | nul => "the bundle name contains a NUL byte"

def stem (name : String) : String :=
  if suffix.toList.isSuffixOf name.toList then
    String.ofList (name.toList.take (name.toList.length - suffix.toList.length))
  else name

def stemFault? (stem : String) : Option Fault :=
  if Text.allBlank stem then some .empty
  else if stem.toList.contains '/' || stem.toList.contains '\\' then some .notPlain
  else if stem = "." || stem = ".." then some .dots
  else if stem.toList.contains '\x00' then some .nul
  else none

def fault? (name : String) : Option Fault :=
  stemFault? (stem name)

theorem isName_append_suffix {stem : String} (h : stem.toList.contains '/' = false) :
    isName (stem ++ suffix) = true := by
  have length : 5 ≤ (stem ++ suffix).toList.length := by
    simp [suffix]
  have slash : (stem ++ suffix).toList.contains '/' = false := by
    simpa [suffix] using h
  have differs (short : String) (hs : short.toList.length < 5) : stem ++ suffix ≠ short := by
    rintro rfl
    omega
  simp only [isName, slash, ne_eq, differs "" (by decide), differs "." (by decide),
    differs ".." (by decide), not_false_eq_true, decide_true, Bool.not_false, Bool.and_self]

theorem no_slash_of_stemFault? {stem : String} (h : stemFault? stem = none) :
    stem.toList.contains '/' = false := by
  unfold stemFault? at h
  split at h
  · simp at h
  · split at h
    · simp at h
    · simp_all

def default : String := "types"

def fileName (name : String) : Except Fault Name :=
  match h : stemFault? (stem name) with
  | some fault => .error fault
  | none => .ok ⟨stem name ++ suffix, isName_append_suffix (no_slash_of_stemFault? h)⟩

end DeclBundle.BundleName
