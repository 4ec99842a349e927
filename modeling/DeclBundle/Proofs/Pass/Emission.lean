import DeclBundle.Compiler
import DeclBundle.Proofs.FileSystem.Fitting

namespace DeclBundle

open FileSystem

structure Draft where
  directory : Location
  name : Name
  text : String

namespace Draft

def place (f : Draft) (base : Location) : Location :=
  base ++ f.directory ++ [f.name]

def write (base : Location) (fs : FileSystem) (f : Draft) : Except IoError FileSystem :=
  match fs.makeDirectories (Location.path (base ++ f.directory)) with
  | (fs, .ok _) => fs.write (f.place base).path f.text.toUTF8
  | (_, .error e) => .error e

def writeAll (base : Location) (files : List Draft) (fs : FileSystem) : Except IoError FileSystem :=
  files.foldlM (write base) fs

def overlaid (base : Location) (files : List Draft) (k : Location) (x : Option Entry) : Option Entry :=
  files.foldl (fun x f => laid (f.place base) f.text k x) x

end Draft

/-- A compiler that writes some files and does nothing else to a tree. It fails if one of them
cannot be written, and the permission bits are its own affair. -/
def Compiler.Emits (compiler : Compiler) (files : List Draft) : Prop :=
  ∀ inDir outDir fs,
    match Draft.writeAll outDir files fs with
    | .ok tree => ∃ tree' output, compiler inDir outDir fs = (tree', .ok output) ∧ ∀ k, tree'.outline k = tree.outline k
    | .error _ => ∃ tree' err, compiler inDir outDir fs = (tree', .error err)

def Compiler.writing (files : List Draft) : Compiler := fun _ outDir fs =>
  match Draft.writeAll outDir files fs with
  | .ok tree => (tree, .ok "")
  | .error err => (fs, .error (.write outDir.path err))

theorem Compiler.emits_writing (files : List Draft) : (Compiler.writing files).Emits files := by
  intro inDir outDir fs
  rw [Compiler.writing]
  cases Draft.writeAll outDir files fs with
  | ok tree => exact ⟨tree, "", rfl, fun _ => rfl⟩
  | error err => exact ⟨fs, .write outDir.path err, rfl⟩

namespace FileSystem

variable {fs : FileSystem} {l : Location}

def Unlinked (fs : FileSystem) (l : Location) : Prop :=
  ∀ k, k <+: l ∨ l <+: k → ∀ text, fs.outline k ≠ some (.link text)

theorem Unlinked.freeOfLinks (h : fs.Unlinked l) (rel : List Name) : fs.FreeOfLinks (l ++ rel) := by
  intro k hk text hget
  have hnear : k <+: l ∨ l <+: k := List.prefix_or_prefix_of_prefix hk (List.prefix_append l rel)
  exact h k hnear text (outline_eq_link_iff.2 hget)

theorem Unlinked.freeOfLinks_self (h : fs.Unlinked l) : fs.FreeOfLinks l := by
  have hfree := h.freeOfLinks []
  rwa [List.append_nil] at hfree

theorem Unlinked.freeOfLinks_place (h : fs.Unlinked l) (f : Draft) : fs.FreeOfLinks (f.place l) := by
  have hfree := h.freeOfLinks (f.directory ++ [f.name])
  rwa [← List.append_assoc] at hfree

theorem unlinked_of_table (h : (fs.table.all fun p => !p.2.isLink) = true) (l : Location) : fs.Unlinked l := by
  intro k _ text hlink
  exact get?_ne_link h k text (outline_eq_link_iff.1 hlink)

end FileSystem

namespace Draft

variable {fs fs' goal : FileSystem} {base k : Location} {files : List Draft} {f : Draft} {text : String}
  {x : Option Entry}

theorem laid_eq_link {l : Location} {target : String} (h : laid l text k x = some (.link target)) : x = some (.link target) := by
  unfold laid at h
  split at h
  · cases h
  · split at h
    · cases h
    · exact h

theorem overlaid_cons (f : Draft) (files : List Draft) (x : Option Entry) :
    overlaid base (f :: files) k x = overlaid base files k (laid (f.place base) f.text k x) :=
  rfl

theorem overlaid_concat (files : List Draft) (f : Draft) (x : Option Entry) :
    overlaid base (files ++ [f]) k x = laid (f.place base) f.text k (overlaid base files k x) := by
  rw [overlaid, List.foldl_append]
  rfl

theorem overlaid_of_not_mem (h : ∀ f ∈ files, f.place base ≠ k) :
    overlaid base files k x = x ∨ x = none ∧ overlaid base files k x = some (.directory 0) := by
  induction files generalizing x with
  | nil => exact .inl rfl
  | cons f files ih =>
    obtain ⟨hf, hrest⟩ := List.forall_mem_cons.1 h
    rw [overlaid_cons, laid, if_neg (Ne.symm hf)]
    split
    next hx =>
      rcases ih (x := some (.directory 0)) hrest with hkept | ⟨hnone, -⟩
      · exact .inr ⟨hx.2, hkept⟩
      · cases hnone
    next => exact ih hrest

theorem overlaid_of_mem (h : ∃ f ∈ files, f.place base = k) :
    ∃ text : String, ∀ x, overlaid base files k x = some (.file text.toUTF8 0) := by
  induction files with
  | nil => simp at h
  | cons f files ih =>
    by_cases hrest : ∃ g ∈ files, g.place base = k
    · obtain ⟨text, htext⟩ := ih hrest
      exact ⟨text, fun x => htext _⟩
    · -- no later file is there, so that this one decides
      have hf : k = f.place base := by
        obtain ⟨g, hg, hk⟩ := h
        rcases List.mem_cons.1 hg with rfl | hg
        · exact hk.symm
        · exact absurd ⟨g, hg, hk⟩ hrest
      refine ⟨f.text, ?_⟩
      intro x
      rw [overlaid_cons, laid, if_pos hf]
      rcases overlaid_of_not_mem (fun g hg hk => hrest ⟨g, hg, hk⟩) with hkept | ⟨hnone, -⟩
      · exact hkept
      · cases hnone

theorem overlaid_overlaid (base : Location) (files : List Draft) (k : Location) (x : Option Entry) :
    overlaid base files k (overlaid base files k x) = overlaid base files k x := by
  by_cases h : ∃ f ∈ files, f.place base = k
  · obtain ⟨text, htext⟩ := overlaid_of_mem h
    rw [htext, htext]
  · have hnot : ∀ f ∈ files, f.place base ≠ k := fun f hf hk => h ⟨f, hf, hk⟩
    rcases overlaid_of_not_mem (x := x) hnot with hkept | ⟨-, hmade⟩
    · rw [hkept, hkept]
    · rw [hmade]
      rcases overlaid_of_not_mem (x := some (.directory 0)) hnot with hkept | ⟨hnone, -⟩
      · exact hkept
      · cases hnone

theorem overlaid_ne_none (h : x ≠ none) : overlaid base files k x ≠ none := by
  by_cases hmem : ∃ f ∈ files, f.place base = k
  · obtain ⟨text, htext⟩ := overlaid_of_mem hmem
    simp [htext]
  · rcases overlaid_of_not_mem (x := x) (fun f hf hk => hmem ⟨f, hf, hk⟩) with hkept | ⟨hnone, -⟩
    · rwa [hkept]
    · exact absurd hnone h

theorem write_eq_ok (hfree : fs.FreeOfLinks (f.place base)) (h : f.write base fs = .ok fs') :
    accept (f.place base).path = .ok () ∧ ∀ k, fs'.outline k = laid (f.place base) f.text k (fs.outline k) := by
  have hdir : base ++ f.directory <+: f.place base := List.prefix_append _ _
  obtain ⟨hg, hs⟩ := makeDirectories_path fs (base ++ f.directory)
  unfold write at h
  rcases hm : fs.makeDirectories (Location.path (base ++ f.directory)) with ⟨mid, _ | u⟩
  · simp [hm] at h
  · rw [hm] at h hg hs
    have hd := hs.isDirectoryAt hg (hfree.above hdir)
    have hlink := hg.freeOfLinks hfree _ (List.prefix_refl _)
    refine ⟨accept_of_write h, ?_⟩
    intro k
    rw [outline_write hd hlink h, outline_of_settled hg hs (hfree.above hdir), place]
    by_cases hk : k = base ++ f.directory ++ [f.name]
    · rw [if_pos hk, laid, if_pos hk]
    · rw [if_neg hk, laid_of_ne hk]

theorem unlinked_of_write (hu : fs.Unlinked base) (h : f.write base fs = .ok fs') : fs'.Unlinked base := by
  intro k hk text hlink
  rw [(write_eq_ok (hu.freeOfLinks_place f) h).2] at hlink
  exact hu k hk text (laid_eq_link hlink)

theorem writeAll_eq_ok (hu : fs.Unlinked base) (h : writeAll base files fs = .ok fs') :
    (∀ f ∈ files, accept (f.place base).path = .ok ()) ∧ fs'.Unlinked base ∧
      ∀ k, fs'.outline k = overlaid base files k (fs.outline k) := by
  induction files generalizing fs with
  | nil =>
    cases h
    exact ⟨by simp, hu, fun _ => rfl⟩
  | cons f files ih =>
    rw [writeAll, List.foldlM_cons] at h
    obtain ⟨mid, hf, hrest⟩ := Results.bind_eq_ok.1 h
    obtain ⟨haccept, hmid⟩ := write_eq_ok (hu.freeOfLinks_place f) hf
    obtain ⟨haccepts, hu', hout⟩ := ih (unlinked_of_write hu hf) hrest
    refine ⟨List.forall_mem_cons.2 ⟨haccept, haccepts⟩, hu', ?_⟩
    intro k
    rw [hout, hmid, overlaid_cons]

theorem exists_write (h : fs.Fits goal) (hgoal : (goal.get? (f.place base)).any Entry.isFile = true)
    (ha : accept (f.place base).path = .ok ()) : ∃ fs', f.write base fs = .ok fs' ∧ fs'.Fits goal := by
  obtain ⟨content, mode, hfile⟩ : ∃ content mode, goal.get? (f.place base) = some (.file content mode) := by
    obtain ⟨e, he, hfile⟩ := (Option.any_eq_true _ _).1 hgoal
    cases e with
    | file content mode => exact ⟨content, mode, he⟩
    | _ => cases hfile
  have hdirectory := isDirectoryAt_iff_get?.2 (get?_dropLast_of_get? hfile)
  obtain ⟨made, hmake, hmade, hd⟩ := h.makeDirectories hdirectory (accept_path_above ha (List.prefix_append _ _))
  rw [write, hmake]
  exact hmade.write hfile ha hd f.text.toUTF8

theorem exists_writeAll (h : fs.Fits goal) (hgoal : ∀ f ∈ files, (goal.get? (f.place base)).any Entry.isFile = true)
    (haccept : ∀ f ∈ files, accept (f.place base).path = .ok ()) :
    ∃ fs', writeAll base files fs = .ok fs' ∧ fs'.Fits goal := by
  induction files generalizing fs with
  | nil => exact ⟨fs, rfl, h⟩
  | cons f files ih =>
    obtain ⟨hf, hrest⟩ := List.forall_mem_cons.1 hgoal
    obtain ⟨ha, harest⟩ := List.forall_mem_cons.1 haccept
    obtain ⟨mid, hwrite, hmid⟩ := exists_write h hf ha
    obtain ⟨fs', hall, hfits⟩ := ih hmid hrest harest
    refine ⟨fs', ?_, hfits⟩
    rw [writeAll, List.foldlM_cons, hwrite]
    exact hall

end Draft

end DeclBundle
