import DeclBundle.Proofs.FileSystem.Alike
import DeclBundle.Proofs.FileSystem.Dismantling
import DeclBundle.Proofs.Pass.Outcomes

/-!
Removals that are under way at the same time, each a task with steps of its own, and in any order joined
when they have ended. Where no path lies within another a task finds at its own path what it left there,
so that all orders come to the same tree and the same outcomes.
-/

namespace DeclBundle

open FileSystem

namespace FileSystem

variable {start fs fs' : FileSystem} {l k : Location} {e : Entry} {places : List Location}

def Removing.Stands (start : FileSystem) (l : Location) : FileSystem × Removing → Prop
  | (fs, looking) => ∀ k, l <+: k → fs.get? k = start.get? k
  | (fs, unlinking) => accept l.path = .ok () ∧ start.isDirectoryAt l = false ∧
      ∀ k, l <+: k → fs.get? k = start.get? k
  | (fs, opening) => accept l.path = .ok () ∧ start.isDirectoryAt l = true ∧
      ∀ k, l <+: k → fs.get? k = start.get? k
  | (fs, emptying j) => j = l ∧ accept l.path = .ok () ∧ fs.isDirectoryAt l = true
  | (fs, closing) => accept l.path = .ok () ∧ fs.isDirectoryAt l = true ∧ fs.isOccupied l = false
  | (fs, ended r) => r = outcome l.path ∧
      ∀ k, l <+: k → fs.get? k = if r = .removed then none else start.get? k

open Removing

theorem Removing.Stands.congr {m : Removing} (h : Stands start l (fs, m))
    (hsame : ∀ k, l <+: k → fs'.get? k = fs.get? k) : Stands start l (fs', m) := by
  have hdir : fs'.isDirectoryAt l = fs.isDirectoryAt l := isDirectoryAt_congr (hsame l (List.prefix_refl l))
  have hfree (hf : fs.isOccupied l = false) : fs'.isOccupied l = false := by
    apply isOccupied_eq_false_iff.2
    intro rel hrel
    rw [hsame _ (List.prefix_append l rel)]
    exact isOccupied_eq_false_iff.1 hf rel hrel
  cases m with
  | looking => exact fun k hk => (hsame k hk).trans (h k hk)
  | unlinking => exact ⟨h.1, h.2.1, fun k hk => (hsame k hk).trans (h.2.2 k hk)⟩
  | opening => exact ⟨h.1, h.2.1, fun k hk => (hsame k hk).trans (h.2.2 k hk)⟩
  | emptying j => exact ⟨h.1, h.2.1, hdir.trans h.2.2⟩
  | closing => exact ⟨h.1, hdir.trans h.2.1, hfree h.2.2⟩
  | ended r => exact ⟨h.1, fun k hk => (hsame k hk).trans (h.2 k hk)⟩

theorem Removing.stands_erase (ha : accept l.path = .ok ()) (hl : l ≠ []) (start fs : FileSystem) :
    Stands start l (fs.erase l, ended .removed) ∧ ∀ k, ¬l <+: k → (fs.erase l).get? k = fs.get? k := by
  have herase := fs.get?_erase_of_ne_root hl
  refine ⟨⟨by rw [outcome, ha], fun k hk => ?_⟩, fun k hk => ?_⟩
  · rw [herase, if_pos hk, if_pos rfl]
  · rw [herase, if_neg hk]

theorem Removing.Stands.step {x y : FileSystem × Removing} (h : Stands start l x) (hl : l ≠ [])
    (he : start.get? l = some e) (hstep : Step l.path x y) :
    Stands start l y ∧ ∀ k, ¬l <+: k → y.1.get? k = x.1.get? k := by
  cases hstep with
  | @look fs =>
    refine ⟨?_, fun _ _ => rfl⟩
    have hget := (h l (List.prefix_refl l)).trans he
    cases ha : accept l.path with
    | error err =>
      have hrefused : refused err = .failed err := by rw [refused, not_isNotFound_of_accept ha]; rfl
      rw [find_path_of_error ha, looked, hrefused]
      exact ⟨by rw [outcome, ha], h⟩
    | ok u =>
      rw [find_path ha hget (.inl rfl)]
      cases e with
      | directory mode => exact ⟨ha, isDirectoryAt_iff_get?.2 ⟨mode, he⟩, h⟩
      | _ => exact ⟨ha, by simp [isDirectoryAt, he, Entry.isDirectory], h⟩
  | @unlink fs =>
    obtain ⟨ha, hfile, hsame⟩ := h
    rw [find_path ha ((hsame l (List.prefix_refl l)).trans he) (.inl rfl)]
    cases e with
    | directory mode => simp [isDirectoryAt, he, Entry.isDirectory] at hfile
    | _ => exact stands_erase ha hl start fs
  | @enter fs =>
    obtain ⟨ha, hdir, hsame⟩ := h
    have hget := hsame l (List.prefix_refl l)
    obtain ⟨mode, hm⟩ := isDirectoryAt_iff_get?.1 hdir
    rw [find_path ha (hget.trans hm) (.inl rfl)]
    exact ⟨⟨rfl, ha, (isDirectoryAt_congr hget).trans hdir⟩, fun _ _ => rfl⟩
  | @erase fs j k e' hk hget hfree =>
    obtain ⟨rfl, ha, hdir⟩ := h
    have herase := fs.get?_erase_of_ne_root (ne_root_of_isBelow hk)
    obtain ⟨hle, hne⟩ := isBelow_iff.1 hk
    refine ⟨⟨rfl, ha, ?_⟩, ?_⟩
    · rw [isDirectoryAt_congr ((herase j).trans (if_neg fun hkj => ?_)), hdir]
      exact hne (hle.eq_of_length_le hkj.length_le)
    · intro i hi
      exact (herase i).trans (if_neg fun hki => hi (hle.trans hki))
  | empty hfree =>
    obtain ⟨rfl, ha, hdir⟩ := h
    exact ⟨⟨ha, hdir, hfree⟩, fun _ _ => rfl⟩
  | @close fs =>
    obtain ⟨ha, hdir, hfree⟩ := h
    obtain ⟨d, n, rfl⟩ := (List.eq_nil_or_concat l).resolve_left hl
    rw [List.concat_eq_append] at *
    obtain ⟨mode, hm⟩ := isDirectoryAt_iff_get?.1 hdir
    rw [removeDirectory_path hm hfree]
    exact stands_erase ha hl start fs

structure Cleared (start : FileSystem) (places : List Location) (fs : FileSystem) (outcomes : List (Path × Removal)) :
    Prop where
  thinned : IsThinned start fs
  get?_eq : ∀ k, fs.get? k = if ∃ l ∈ places, l <+: k ∧ outcome l.path = .removed then none else start.get? k
  paths : (outcomes.map Prod.fst).Perm (places.map Location.path)
  outcomes : ∀ x ∈ outcomes, x.2 = outcome x.1

end FileSystem

structure Crew where
  files : FileSystem
  pending : List (Path × Removing)
  joined : List (Path × Removal)

namespace Crew

open Removing

variable {c d : Crew} {start : FileSystem} {places : List Location}

def spawn (paths : List Path) (fs : FileSystem) : Crew :=
  ⟨fs, paths.map (·, looking), []⟩

inductive Step : Crew → Crew → Prop
  | work {fs fs' : FileSystem} {p : Path} {m m' : Removing} {front rest : List (Path × Removing)}
      {joined : List (Path × Removal)} (h : Removing.Step p (fs, m) (fs', m')) :
      Step ⟨fs, front ++ (p, m) :: rest, joined⟩ ⟨fs', front ++ (p, m') :: rest, joined⟩
  | join {fs : FileSystem} {p : Path} {r : Removal} {front rest : List (Path × Removing)}
      {joined : List (Path × Removal)} :
      Step ⟨fs, front ++ (p, ended r) :: rest, joined⟩ ⟨fs, front ++ rest, joined ++ [(p, r)]⟩

def load : List (Path × Removing) → Nat
  | [] => 0
  | t :: rest => t.2.rank + 1 + load rest

theorem load_append (front rest : List (Path × Removing)) : load (front ++ rest) = load front + load rest := by
  induction front with
  | nil => simp [load]
  | cons t front ih =>
    rw [List.cons_append, load, load, ih]
    omega

def cost (c : Crew) : Nat :=
  c.files.table.length + load c.pending

theorem Step.decreases (h : Step c d) : d.cost < c.cost := by
  cases h with
  | work h =>
    have hless := h.decreases
    simp only [cost, load_append, load] at hless ⊢
    omega
  | join =>
    simp only [cost, load_append, load]
    omega

theorem exists_step (c : Crew) (h : c.pending ≠ []) : ∃ d, Step c d := by
  obtain ⟨fs, pending, joined⟩ := c
  cases pending with
  | nil => exact absurd rfl h
  | cons t rest =>
    obtain ⟨p, m⟩ := t
    by_cases hm : ∃ r, m = ended r
    · obtain ⟨r, rfl⟩ := hm
      have hjoin : Step ⟨fs, [] ++ (p, ended r) :: rest, joined⟩ _ := .join
      exact ⟨_, hjoin⟩
    · obtain ⟨⟨fs', m'⟩, hstep⟩ := Removing.exists_step (p := p) fs fun r hr => hm ⟨r, hr⟩
      have hwork : Step ⟨fs, [] ++ (p, m) :: rest, joined⟩ _ := .work hstep
      exact ⟨_, hwork⟩

def tasks (c : Crew) : List (Path × Removing) :=
  c.pending ++ c.joined.map fun (p, r) => (p, ended r)

theorem tasks_join_perm {fs : FileSystem} {p : Path} {r : Removal} {front rest : List (Path × Removing)}
    {joined : List (Path × Removal)} : (tasks ⟨fs, front ++ rest, joined ++ [(p, r)]⟩).Perm
      (tasks ⟨fs, front ++ (p, ended r) :: rest, joined⟩) := by
  simp only [tasks, List.map_append, List.map_cons, List.map_nil, List.append_assoc, List.cons_append]
  refine List.Perm.trans ?_ List.perm_middle.symm
  rw [← List.append_assoc, ← List.append_assoc, List.append_assoc front]
  exact List.perm_append_singleton _ _

/-- What the tasks have done together: each is at its own place as if it were alone, and all other
places are as they were. -/
structure Orderly (start : FileSystem) (places : List Location) (c : Crew) : Prop where
  thinned : IsThinned start c.files
  frame : ∀ k, (∀ l ∈ places, ¬l <+: k) → c.files.get? k = start.get? k
  stands : ∃ m : Location → Removing, c.tasks.Perm (places.map fun l => (l.path, m l)) ∧
    ∀ l ∈ places, Stands start l (c.files, m l)

theorem orderly_spawn (start : FileSystem) (places : List Location) :
    Orderly start places (spawn (places.map Location.path) start) where
  thinned := .refl start
  frame _ _ := rfl
  stands := by
    refine ⟨fun _ => looking, ?_, fun _ _ _ _ => rfl⟩
    simp [tasks, spawn, Function.comp_def]

theorem exists_place_of_task {m : Location → Removing} {p : Path} {x : Removing} {front rest : List (Path × Removing)}
    (h : (front ++ (p, x) :: rest).Perm (places.map fun l => (l.path, m l))) (hnodup : places.Nodup) :
    ∃ l ∈ places, p = l.path ∧ x = m l ∧ ∀ y,
      (front ++ (p, y) :: rest).Perm (places.map fun k => (k.path, if k = l then y else m k)) := by
  have hmem : (p, x) ∈ places.map fun l => (l.path, m l) := h.mem_iff.1 (by simp)
  obtain ⟨l, hl, heq⟩ := List.mem_map.1 hmem
  obtain ⟨rfl, rfl⟩ := Prod.mk.inj heq
  refine ⟨l, hl, rfl, rfl, ?_⟩
  intro y
  have hfirst := List.perm_cons_erase hl
  have hothers : (front ++ rest).Perm ((places.erase l).map fun k => (k.path, m k)) :=
    (List.perm_middle.symm.trans (h.trans (hfirst.map _))).cons_inv
  have hkept : (places.erase l).map (fun k => (k.path, m k)) =
      (places.erase l).map fun k => (k.path, if k = l then y else m k) := by
    apply List.map_congr_left
    intro k hk
    rw [if_neg (hnodup.mem_erase_iff.1 hk).1]
  rw [hkept] at hothers
  refine List.perm_middle.trans ((hothers.cons (l.path, y)).trans ?_)
  have hback := hfirst.symm.map fun k => (k.path, if k = l then y else m k)
  simpa using hback

theorem Orderly.step (h : Orderly start places c) (hs : start.Scattered places) (hstep : Step c d) :
    Orderly start places d := by
  obtain ⟨m, hperm, hstands⟩ := h.stands
  cases hstep with
  | @work fs fs' p x y front rest joined hwork =>
    rw [tasks, List.append_assoc, List.cons_append] at hperm
    obtain ⟨l, hl, rfl, rfl, hafter⟩ := exists_place_of_task hperm hs.nodup
    obtain ⟨hne, e, he⟩ := hs.stands l hl
    obtain ⟨hown, hframe⟩ := (hstands l hl).step hne he hwork
    constructor
    case thinned => exact h.thinned.trans hwork.isThinned
    case frame =>
      intro k hk
      exact (hframe k (hk l hl)).trans (h.frame k hk)
    case stands =>
      refine ⟨fun k => if k = l then y else m k, ?_, ?_⟩
      · rw [tasks, List.append_assoc, List.cons_append]
        exact hafter y
      · intro k hk
        by_cases hkl : k = l
        · subst hkl
          simpa using hown
        · -- what the step has changed lies in another place's part of the tree
          simp only [hkl, ↓reduceIte]
          apply (hstands k hk).congr
          intro j hj
          exact hframe j fun hlj => hkl (hs.eq_of_prefix hk hl hj hlj)
  | @join fs p r front rest joined =>
    exact ⟨h.thinned, h.frame, m, tasks_join_perm.trans hperm, hstands⟩

theorem Orderly.stands_ended (h : Orderly start places c) (hdone : c.pending = []) {l : Location} (hl : l ∈ places) :
    Stands start l (c.files, ended (outcome l.path)) := by
  obtain ⟨m, hperm, hstands⟩ := h.stands
  rw [tasks, hdone, List.nil_append] at hperm
  obtain ⟨⟨p, r⟩, -, heq⟩ := List.mem_map.1 (hperm.mem_iff.2 (List.mem_map_of_mem hl))
  obtain ⟨rfl, hended⟩ := Prod.mk.inj heq
  have hown := hstands l hl
  rw [← hended] at hown
  obtain ⟨rfl, -⟩ := id hown
  exact hown

theorem Orderly.cleared (h : Orderly start places c) (hs : start.Scattered places) (hdone : c.pending = []) :
    start.Cleared places c.files c.joined where
  thinned := h.thinned
  get?_eq k := by
    by_cases hk : ∃ l ∈ places, l <+: k
    · obtain ⟨l, hl, hlk⟩ := hk
      obtain ⟨-, hgone⟩ := h.stands_ended hdone hl
      rw [hgone k hlk]
      by_cases ho : outcome l.path = .removed
      · rw [if_pos ho, if_pos ⟨l, hl, hlk, ho⟩]
      · rw [if_neg ho, if_neg]
        rintro ⟨j, hj, hjk, hremoved⟩
        rw [hs.eq_of_prefix hl hj hlk hjk] at ho
        exact ho hremoved
    · rw [h.frame k fun l hl hlk => hk ⟨l, hl, hlk⟩, if_neg]
      rintro ⟨l, hl, hlk, -⟩
      exact hk ⟨l, hl, hlk⟩
  paths := by
    obtain ⟨m, hperm, -⟩ := h.stands
    rw [tasks, hdone, List.nil_append] at hperm
    have hfst := hperm.map Prod.fst
    rwa [List.map_map, List.map_map] at hfst
  outcomes x hx := by
    obtain ⟨m, hperm, hstands⟩ := h.stands
    rw [tasks, hdone, List.nil_append] at hperm
    obtain ⟨l, hl, heq⟩ := List.mem_map.1 (hperm.mem_iff.1 (List.mem_map_of_mem hx))
    obtain ⟨hpath, hended⟩ := Prod.mk.inj heq
    have hown := hstands l hl
    rw [hended] at hown
    rw [← hpath]
    exact hown.1

theorem Orderly.steps {n : Nat} (hs : start.Scattered places)
    (h : Steps Step (spawn (places.map Location.path) start) n c) : Orderly start places c :=
  h.keeps (fun _ _ hc hstep => hc.step hs hstep) (orderly_spawn start places)

end Crew

end DeclBundle
