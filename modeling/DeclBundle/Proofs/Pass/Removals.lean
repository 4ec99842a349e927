import DeclBundle.Proofs.FileSystem.Alike
import DeclBundle.Proofs.FileSystem.Removal
import DeclBundle.Proofs.FileSystem.Snapshots
import DeclBundle.Proofs.Pass.Stages
import DeclBundle.Proofs.PathSet.Roots

namespace DeclBundle

namespace FileSystem

variable {fs : FileSystem} {places : List Location} {i j k l : Location}

structure Scattered (fs : FileSystem) (places : List Location) : Prop where
  stands : ∀ l ∈ places, l ≠ [] ∧ ∃ e, fs.get? l = some e
  apart : places.Pairwise Location.Apart

theorem Scattered.nodup (h : fs.Scattered places) : places.Nodup := by
  apply h.apart.imp
  rintro k l hkl rfl
  exact hkl.1 (List.prefix_refl _)

theorem Scattered.not_prefix (h : fs.Scattered places) : places.Pairwise fun k l => ¬k <+: l := by
  apply h.apart.imp
  intro k l hkl
  exact hkl.1

theorem Scattered.apart_of_ne (h : fs.Scattered places) (hk : k ∈ places) (hl : l ∈ places) (hne : k ≠ l) :
    k.Apart l := by
  have hforth : places.Pairwise fun k l => k ≠ l → k.Apart l := by
    apply h.apart.imp
    intro k l hkl _
    exact hkl
  have hback : places.Pairwise fun k l => l ≠ k → l.Apart k := by
    apply h.apart.imp
    intro k l hkl _
    exact hkl.symm
  exact hforth.forall_of_forall_of_flip (fun _ _ hne => absurd rfl hne) hback hk hl hne

theorem Scattered.eq_of_prefix (h : fs.Scattered places) (hi : i ∈ places) (hj : j ∈ places)
    (hik : i <+: k) (hjk : j <+: k) : i = j := by
  apply Classical.byContradiction
  intro hne
  obtain ⟨hij, hji⟩ := h.apart_of_ne hi hj hne
  rcases List.prefix_or_prefix_of_prefix hik hjk with hle | hle
  · exact hij hle
  · exact hji hle

end FileSystem

namespace Stage

open FileSystem

variable {s : Schedule} {before after : PathSet} {bundle p : Path} {paths : List Path} {order : List Nat}
  {fs : FileSystem} {r : Removal} {base : Location}

theorem filterMap_getElem?_range (l : List α) : (List.range l.length).filterMap (l[·]?) = l := by
  induction l with
  | nil => rfl
  | cons a l ih => simpa [List.range_succ_eq_map, List.filterMap_map, Function.comp_def] using ih

theorem arrange_perm (h : order.Perm (List.range paths.length)) : (arrange paths order).Perm paths := by
  have hperm := h.filterMap (paths[·]?)
  rwa [filterMap_getElem?_range] at hperm

def roots (before after : PathSet) (bundle : Path) : List Path :=
  (PathSet.deletionSet before after bundle).roots.toList

theorem doomed_perm (s : Schedule) (before after : PathSet) (bundle : Path) :
    (doomed s before after bundle).Perm (PathSet.deletionSet before after bundle).roots.toList :=
  arrange_perm (s.removals_perm _)

theorem mem_doomed (h : p ∈ doomed s before after bundle) :
    p ∈ after.toList ∧ p.same bundle = false ∧ before.contains p = false :=
  PathSet.mem_deletionSet_iff.1 (PathSet.mem_of_mem_roots ((doomed_perm s before after bundle).mem_iff.1 h))

theorem exists_doomed (hp : p ∈ after.toList) (hb : p.same bundle = false) (hn : before.contains p = false) :
    ∃ q ∈ doomed s before after bundle, p.isWithin q = true := by
  obtain ⟨q, hq, hw⟩ := PathSet.exists_root (PathSet.mem_deletionSet_iff.2 ⟨hp, hb, hn⟩)
  exact ⟨q, (doomed_perm s before after bundle).mem_iff.2 hq, hw⟩

theorem exists_map_path (h : ∀ p ∈ paths, ∃ l, p = Location.path l) :
    ∃ places : List Location, paths = places.map Location.path := by
  induction paths with
  | nil => exact ⟨[], rfl⟩
  | cons p paths ih =>
    obtain ⟨l, rfl⟩ := h p List.mem_cons_self
    obtain ⟨places, rfl⟩ := ih fun q hq => h q (List.mem_cons_of_mem _ hq)
    exact ⟨l :: places, rfl⟩

theorem exists_scattered (hsnap : fs.snapshot s base.path = .ok after) (hfree : fs.FreeOfLinks base)
    (hperm : paths.Perm (roots before after bundle)) :
    ∃ places : List Location, paths = places.map Location.path ∧ fs.Scattered places := by
  have hafter {p : Path} (hp : p ∈ paths) : p ∈ after.toList :=
    (PathSet.mem_deletionSet_iff.1 (PathSet.mem_of_mem_roots (hperm.mem_iff.1 hp))).1
  obtain ⟨places, rfl⟩ : ∃ places : List Location, paths = places.map Location.path := by
    apply exists_map_path
    intro p hp
    obtain ⟨rel, -, rfl⟩ := (closed_of_snapshot hsnap).below p (hafter hp)
    exact ⟨_, rfl⟩
  refine ⟨places, rfl, ?_, ?_⟩
  · intro l hl
    obtain ⟨hbelow, hget⟩ := (mem_snapshot_of_free hsnap hfree l).1 (hafter (List.mem_map_of_mem hl))
    exact ⟨ne_root_of_isBelow hbelow, hget⟩
  · have hpairwise := hperm.symm.pairwise (PathSet.pairwise_roots _) And.symm
    rw [List.pairwise_map] at hpairwise
    apply hpairwise.imp
    intro k l hkl
    simpa [Bool.eq_false_iff, Location.Apart, and_comm] using hkl

theorem placeRemoval_perm (r : Path × Removal) (rs : List (Path × Removal)) :
    (placeRemoval r rs).Perm (r :: rs) := by
  induction rs with
  | nil => exact .refl _
  | cons q rest ih =>
    rw [placeRemoval]
    split
    · exact .refl _
    · exact (ih.cons q).trans (.swap r q rest)

theorem sortRemovals_perm (rs : List (Path × Removal)) : (sortRemovals rs).Perm rs := by
  induction rs with
  | nil => exact .refl _
  | cons r rest ih => exact (placeRemoval_perm r _).trans (ih.cons r)

theorem map_fst_removeAll (paths : List Path) (fs : FileSystem) :
    (removeAll paths fs).2.map Prod.fst = paths := by
  induction paths generalizing fs with
  | nil => rfl
  | cons p paths ih => rw [removeAll, List.map_cons, ih]

theorem mem_doomed_of_removal (h : (p, r) ∈ sortRemovals (removeAll (doomed s before after bundle) fs).2) :
    p ∈ doomed s before after bundle := by
  have hp := List.mem_map_of_mem (f := Prod.fst) ((sortRemovals_perm _).mem_iff.1 h)
  rwa [map_fst_removeAll] at hp

end Stage

end DeclBundle
