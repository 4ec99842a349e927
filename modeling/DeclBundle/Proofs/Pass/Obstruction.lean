import DeclBundle.Proofs.FileSystem.AlikeWriting
import DeclBundle.Proofs.FileSystem.Reading
import DeclBundle.Proofs.Pass.Emission
import DeclBundle.Proofs.Pass.Success
import DeclBundle.Proofs.Pass.Twins

namespace DeclBundle.Pipeline

open FileSystem Stage

variable {compiler : Compiler} {s : Schedule} {c : Config} {fs : FileSystem} {n : Name} {rel : List Name} {output : String}

section Obstructed

variable (hn : n ∈ c.outDir) (hlong : n.isStorable = false)
include hn hlong

theorem get?_of_unstorable (fs : FileSystem) (rel : List Name) : fs.get? (c.outDir ++ rel) = none := by
  rw [Option.eq_none_iff_forall_ne_some]
  intro e he
  have hshort := mem_name_of_get? he n (List.mem_append_left rel hn)
  rw [hlong] at hshort
  cases hshort

theorem get?_outDir_of_unstorable (fs : FileSystem) : fs.get? c.outDir = none := by
  have hget := get?_of_unstorable hn hlong fs []
  rwa [List.append_nil] at hget

variable (hu : fs.Unlinked c.outDir)
include hu

theorem cleaned_of_unstorable : cleaned c fs = fs := by
  rw [cleaned]
  cases hp : stale? c with
  | none => rfl
  | some path =>
    obtain ⟨rel, rfl⟩ := stale?_eq_some hp
    exact remove_of_get?_none (hu.freeOfLinks rel) (get?_of_unstorable hn hlong fs rel)

variable (ha : accept c.outDir.path = .ok ())
include ha

theorem find_of_unstorable (follow : Bool) : fs.find follow c.outDir.path = .error (.os (fs.obstacle [] c.outDir)) := by
  rw [find_path_of_free hu.freeOfLinks_self ha, get?_outDir_of_unstorable hn hlong]

theorem run_of_obstacle (h : fs.obstacle [] c.outDir ≠ .notFound) :
    ((plain compiler).run s c fs).1 = .error (.snapshot c.outDir.path (.os (fs.obstacle [] c.outDir))) := by
  apply run_of_unrecorded
  rw [cleaned_of_unstorable hn hlong hu, snapshotOrEmpty, find_of_unstorable hn hlong hu ha]
  simp [IoError.isNotFound, h]

theorem run_of_missing (h : fs.obstacle [] c.outDir = .notFound)
    (ho : compiler c.inDir c.outDir fs = (fs, .ok output)) :
    ∃ err, ((plain compiler).run s c fs).1 = .error (.write c.bundlePath err) := by
  have hfind := find_of_unstorable hn hlong hu ha
  have hbefore : (cleaned c fs).snapshotOrEmpty s c.outDir.path = .ok .empty := by
    rw [cleaned_of_unstorable hn hlong hu, snapshotOrEmpty, hfind, h]
    rfl
  have hlist : listDeclarations s fs c.outDir.path = .ok [] := by
    rw [listDeclarations, hfind, h]
    rfl
  have hread : readAll s fs (chosen .empty c []) = .ok [] := readAll_of_map_read rfl
  have hcompile : compiler c.inDir c.outDir (cleaned c fs) = (fs, .ok output) := by
    rw [cleaned_of_unstorable hn hlong hu, ho]
  rcases hmake : fs.makeDirectories c.outDir.path with ⟨mid, err | u⟩
  · exact ⟨err, run_of_unwritten hbefore hcompile hlist hread (replace_of_not_made hmake _)⟩
  · obtain ⟨-, hd, -⟩ := makeDirectories_eq_ok hu.freeOfLinks_self hmake
    rw [isDirectoryAt, get?_outDir_of_unstorable hn hlong] at hd
    cases hd

end Obstructed

end DeclBundle.Pipeline
