import DeclBundle.Proofs.Pass.Twins

namespace DeclBundle

open FileSystem

namespace FileSystem

variable {fs : FileSystem} {l : Location}

theorem noNewLink_put {e : Entry} (he : e.isLink = false) : NoNewLink fs (fs.put l e) := by
  intro k text hk
  by_cases ht : fs.Takes l e
  · rw [get?_put ht] at hk
    split at hk
    · cases hk
      cases he
    · exact hk
  · rwa [FileSystem.put, dif_neg ht] at hk

theorem write_of_error {err : IoError} (ha : accept l.path = .error err) (content : ByteArray) :
    fs.write l.path content = .error err := by
  rw [FileSystem.write, locate, ha]
  rfl

end FileSystem

namespace Draft

variable {fs fs' : FileSystem} {base b : Location} {f : Draft} {files : List Draft}

inductive Parallel (fs fs' : FileSystem) (base : Location) : Except IoError FileSystem → Except IoError FileSystem → Prop
  | fail (err : IoError) : Parallel fs fs' base (.error err) (.error err)
  | done {gs gs' : FileSystem} (alike : ∀ b, Alike fs fs' b → Alike gs gs' b) (links : NoNewLink fs gs)
    (frame : ∀ b, b.Apart base → Alike fs gs b) : Parallel fs fs' base (.ok gs) (.ok gs')

theorem parallel_write (h : Alike fs fs' base) (hu : fs.Unlinked base)
    (hnames : ∀ n ∈ base ++ f.directory, n.isStorable = true) :
    Parallel fs fs' base (f.write base fs) (f.write base fs') := by
  have hfree := hu.freeOfLinks f.directory
  obtain ⟨hg, -⟩ := makeDirectories_path fs (base ++ f.directory)
  obtain ⟨hsame, halike⟩ := h.makeDirectories hnames hfree
  have hframe (b : Location) (hb : b.Apart base) := alike_makeDirectories hb hnames hfree
  rw [write, write]
  rcases hm : fs.makeDirectories (Location.path (base ++ f.directory)) with ⟨mid, r⟩
  rcases hm' : fs'.makeDirectories (Location.path (base ++ f.directory)) with ⟨mid', r'⟩
  rw [hm, hm'] at hsame halike
  rw [hm] at hg hframe
  cases hsame
  cases r with
  | error err => exact .fail err
  | ok u =>
    obtain ⟨-, hd, -⟩ := makeDirectories_eq_ok hfree hm
    obtain ⟨-, hd', -⟩ := makeDirectories_eq_ok (h.freeOfLinks hfree) hm'
    have hmid := halike base h
    have hlinks := hg.noNewLink.unlinked hu
    have hlinks' := hmid.unlinked hlinks
    have hget : mid.get? (f.place base) = mid'.get? (f.place base) := hmid.get?_of_prefix ⟨_, (List.append_assoc _ _ _).symm⟩
    have hput (content : ByteArray) (mode : Nat) : Parallel fs fs' base
        (.ok (mid.put (f.place base) (.file content mode))) (.ok (mid'.put (f.place base) (.file content mode))) := by
      apply Parallel.done
      case alike =>
        intro b hb
        exact hmid.put_below (halike b hb) f.directory f.name _
      case links => exact hg.noNewLink.trans (noNewLink_put rfl)
      case frame =>
        intro b hb
        have hplace : b.Apart (base ++ f.directory ++ [f.name]) := by
          rw [List.append_assoc]
          exact hb.append_right _
        exact (hframe b hb).trans (alike_put_of_apart hplace _)
    cases ha : accept (f.place base).path with
    | error err =>
      dsimp only
      rw [write_of_error ha, write_of_error ha]
      exact .fail err
    | ok u' =>
      have hwrite := write_path ha hd (hlinks.freeOfLinks_place f _ (List.prefix_refl _)) f.text.toUTF8
      have hwrite' := write_path ha hd' (hlinks'.freeOfLinks_place f _ (List.prefix_refl _)) f.text.toUTF8
      dsimp only
      rw [place] at hput hget ⊢
      rw [hwrite, hwrite', ← hget]
      cases mid.get? (base ++ f.directory ++ [f.name]) with
      | none =>
        cases f.name.isStorable with
        | true => exact hput _ _
        | false => exact .fail _
      | some e =>
        cases e with
        | file content mode => exact hput _ mode
        | _ => exact .fail _

theorem parallel_writeAll (h : Alike fs fs' base) (hu : fs.Unlinked base)
    (hnames : ∀ f ∈ files, ∀ n ∈ base ++ f.directory, n.isStorable = true) :
    Parallel fs fs' base (writeAll base files fs) (writeAll base files fs') := by
  induction files generalizing fs fs' with
  | nil => exact .done (fun _ hb => hb) (.refl fs) fun b _ => .refl fs b
  | cons f files ih =>
    obtain ⟨hf, hrest⟩ := List.forall_mem_cons.1 hnames
    have hfirst := parallel_write h hu hf
    rw [writeAll, writeAll, List.foldlM_cons, List.foldlM_cons]
    generalize f.write base fs = r, f.write base fs' = r' at hfirst
    cases hfirst with
    | fail err => exact .fail err
    | @done mid mid' halike hlinks hframe =>
      have hlater := ih (halike base h) (hlinks.unlinked hu) hrest
      rw [writeAll, writeAll] at hlater
      simp only [Results.ok_bind]
      generalize files.foldlM (write base) mid = r, files.foldlM (write base) mid' = r' at hlater
      cases hlater with
      | fail err => exact .fail err
      | done halike' hlinks' hframe' =>
        exact .done (fun b hb => halike' b (halike b hb)) (hlinks.trans hlinks')
          fun b hb => (hframe b hb).trans (hframe' b hb)

end Draft

namespace Compiler

variable {inDir outDir : Location} {files : List Draft}

theorem confined_writing (h : ∀ f ∈ files, ∀ n ∈ outDir ++ f.directory, n.isStorable = true) :
    (Compiler.writing files).Confined inDir outDir where
  reads fs fs' ht := by
    have hboth := Draft.parallel_writeAll ht.alike_outDir ht.unlinked_outDir h
    rw [writing, writing]
    generalize Draft.writeAll outDir files fs = r, Draft.writeAll outDir files fs' = r' at hboth
    cases hboth with
    | fail err => exact ⟨rfl, ht⟩
    | done halike hlinks _ => exact ⟨rfl, ht.change halike hlinks⟩
  writes fs base ht hb := by
    have hself := Draft.parallel_writeAll ht.alike_outDir ht.unlinked_outDir h
    rw [writing]
    generalize Draft.writeAll outDir files fs = r at hself
    cases hself with
    | fail err => exact .refl fs base
    | done _ _ hframe => exact hframe base hb

end Compiler

end DeclBundle
