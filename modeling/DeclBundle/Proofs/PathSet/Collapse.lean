import DeclBundle.Proofs.PathSet.Roots

/-!
What is lost and what is spared when a set of paths is removed by its topmost members. The roots of
a set stand for all of it, each member under exactly one of them. And since a snapshot holds with a
path all that is above it, no root of what a pass deletes lies above anything that was there before
or above the bundle.
-/

namespace DeclBundle

namespace Path

variable {p q r base bundle : Path}

theorem components_eq_of_isWithin (hpq : p.isWithin q = true) (hqp : q.isWithin p = true) :
    p.components = q.components := by
  have hle := isWithin_iff.1 hqp
  exact hle.eq_of_length_le (isWithin_iff.1 hpq).length_le

def IsBelow (p base : Path) : Prop :=
  p.isWithin base = true ∧ p.same base = false

instance (p base : Path) : Decidable (p.IsBelow base) :=
  inferInstanceAs (Decidable (_ ∧ _))

def IsChild (p base : Path) : Prop :=
  ∃ c, p.components = base.components ++ [c]

theorem IsBelow.components_ne (h : p.IsBelow base) : p.components ≠ base.components := by
  intro heq
  rw [IsBelow, same_iff.2 heq] at h
  cases h.2

theorem IsChild.eq_of_above (h : bundle.IsChild base) (hp : p.IsBelow base) (hw : bundle.isWithin p = true) :
    p.components = bundle.components := by
  obtain ⟨c, hc⟩ := h
  have hw := isWithin_iff.1 hw
  rw [hc, List.prefix_concat_iff] at hw
  rcases hw with heq | habove
  · exact heq.trans hc.symm
  · exact absurd (habove.eq_of_length_le (isWithin_iff.1 hp.1).length_le) hp.components_ne

end Path

namespace PathSet

variable {s before after : PathSet} {p q r base bundle : Path}

theorem mem_roots_iff : p ∈ s.roots.toList ↔ p ∈ s.toList ∧ ∀ q ∈ s.toList, q ≠ p → p.isWithin q = false := by
  constructor
  · intro hp
    refine ⟨mem_of_mem_roots hp, ?_⟩
    intro q hq hne
    rw [Bool.eq_false_iff]
    intro hpq
    -- the root of the other member is this one, so that each lies within the other
    obtain ⟨r, hr, hqr⟩ := exists_root hq
    obtain rfl := eq_of_isWithin_root hp hr (Path.isWithin_trans hpq hqr)
    exact hne (eq_of_components hq (mem_of_mem_roots hp) (Path.components_eq_of_isWithin hqr hpq))
  · rintro ⟨hp, hfree⟩
    obtain ⟨r, hr, hpr⟩ := exists_root hp
    by_cases heq : r = p
    · rwa [← heq]
    · rw [hfree r (mem_of_mem_roots hr) heq] at hpr
      cases hpr

theorem root_unique (hq : q ∈ s.roots.toList) (hr : r ∈ s.roots.toList) (hpq : p.isWithin q = true)
    (hpr : p.isWithin r = true) : q = r := by
  -- both are prefixes of one path, so one of them lies within the other
  rcases List.prefix_or_prefix_of_prefix (Path.isWithin_iff.1 hpr) (Path.isWithin_iff.1 hpq) with h | h
  · exact eq_of_isWithin_root hq hr (Path.isWithin_iff.2 h)
  · exact (eq_of_isWithin_root hr hq (Path.isWithin_iff.2 h)).symm

theorem roots_roots (s : PathSet) : s.roots.roots = s.roots := by
  apply ext_mem
  intro p
  rw [mem_roots_iff, and_iff_left_of_imp]
  intro hp q hq hne
  rw [Bool.eq_false_iff]
  intro hw
  exact hne (eq_of_isWithin_root hp hq hw).symm

/-- The roots are the members that lie within no other member. None lies within another, every member
lies within exactly one, and the roots are their own roots. -/
theorem roots_collapse (s : PathSet) :
    (∀ p, p ∈ s.roots.toList ↔ p ∈ s.toList ∧ ∀ q ∈ s.toList, q ≠ p → p.isWithin q = false) ∧
    (∀ p ∈ s.roots.toList, ∀ q ∈ s.roots.toList, q ≠ p → p.isWithin q = false) ∧
    (∀ p ∈ s.toList, ∃ r ∈ s.roots.toList, p.isWithin r = true ∧
      ∀ q ∈ s.roots.toList, p.isWithin q = true → q = r) ∧
    s.roots.roots = s.roots := by
  refine ⟨fun _ => mem_roots_iff, ?_, ?_, roots_roots s⟩
  · intro p hp q hq
    exact (mem_roots_iff.1 hp).2 q (mem_of_mem_roots hq)
  · intro p hp
    obtain ⟨r, hr, hpr⟩ := exists_root hp
    exact ⟨r, hr, hpr, fun q hq hpq => root_unique hq hr hpq hpr⟩

example : (ofList [⟨"lib/x"⟩, ⟨"lib-extra"⟩, ⟨"./lib/x"⟩, ⟨"lib.d.ts"⟩, ⟨"lib"⟩, ⟨"../lib"⟩]).roots.toList =
    [⟨"./lib/x"⟩, ⟨"../lib"⟩, ⟨"lib"⟩, ⟨"lib-extra"⟩, ⟨"lib.d.ts"⟩] := by
  decide +kernel

/-- Holds with each member every path above it that is below a directory. -/
def ClosedBelow (s : PathSet) (base : Path) : Prop :=
  ∀ p ∈ s.toList, ∀ q : Path, q.IsBelow base → p.isWithin q = true → s.contains q = true

theorem ClosedBelow.contains_above (h : s.ClosedBelow base) (hp : s.contains p = true) (hq : q.IsBelow base)
    (hpq : p.isWithin q = true) : s.contains q = true := by
  obtain ⟨p', hp', heq⟩ := contains_iff.1 hp
  rw [Path.isWithin, heq] at hpq
  exact h p' hp' q hq hpq

theorem closedBelow_of_take (h : ∀ p ∈ s.toList, ∀ n ≤ p.components.length, base.components <+: p.components.take n →
      p.components.take n ≠ base.components → ∃ q ∈ s.toList, p.components.take n = q.components) :
    s.ClosedBelow base := by
  intro p hp q hq hpq
  have hpq := Path.isWithin_iff.1 hpq
  have htake := List.prefix_iff_eq_take.1 hpq
  have habove := h p hp q.components.length hpq.length_le
  rw [← htake] at habove
  exact contains_iff.2 (habove (Path.isWithin_iff.1 hq.1) hq.components_ne)

/-- Of the paths after a pass exactly those that were there before, and the bundle, lie within no path
that the pass removes. -/
theorem outside_roots_iff (hbefore : before.ClosedBelow base) (hafter : ∀ p ∈ after.toList, p.IsBelow base)
    (hbundle : bundle.IsChild base) (hp : p ∈ after.toList) :
    (∀ r ∈ (deletionSet before after bundle).roots.toList, p.isWithin r = false) ↔
      before.contains p = true ∨ p.same bundle = true := by
  constructor
  · intro hfree
    apply Classical.byContradiction
    intro hno
    rw [not_or, Bool.not_eq_true, Bool.not_eq_true] at hno
    obtain ⟨r, hr, hpr⟩ := exists_root (mem_deletionSet_iff.2 ⟨hp, hno.2, hno.1⟩)
    rw [hfree r hr] at hpr
    cases hpr
  · intro hkept r hr
    obtain ⟨hr, hnot, hnew⟩ := mem_deletionSet_iff.1 (mem_of_mem_roots hr)
    rw [Bool.eq_false_iff]
    intro hpr
    rcases hkept with hold | hsame
    · rw [hbefore.contains_above hold (hafter r hr) hpr] at hnew
      cases hnew
    · rw [Path.isWithin, Path.same_iff.1 hsame] at hpr
      rw [Path.same_iff.2 (hbundle.eq_of_above (hafter r hr) hpr)] at hnot
      cases hnot

theorem outside_roots_iff_sample :
    let before := ofList [⟨"/out/lib"⟩, ⟨"/out/lib/keep.txt"⟩]
    let after := ofList [⟨"/out/lib/keep.txt"⟩, ⟨"/out/lib/deep/a.d.ts"⟩, ⟨"/out/lib-extra"⟩, ⟨"/out/types.d.ts"⟩]
    before.ClosedBelow ⟨"/out"⟩ ∧ (∀ p ∈ after.toList, p.IsBelow ⟨"/out"⟩) ∧ Path.IsChild ⟨"/out/types.d.ts"⟩ ⟨"/out"⟩ ∧
      ⟨"/out/lib/keep.txt"⟩ ∈ after.toList ∧
      ((∀ r ∈ (deletionSet before after ⟨"/out/types.d.ts"⟩).roots.toList, Path.isWithin ⟨"/out/lib/keep.txt"⟩ r = false) ↔
        before.contains ⟨"/out/lib/keep.txt"⟩ = true ∨ Path.same ⟨"/out/lib/keep.txt"⟩ ⟨"/out/types.d.ts"⟩ = true) := by
  intro before after
  have hbefore : before.ClosedBelow ⟨"/out"⟩ := closedBelow_of_take (by decide +kernel)
  have hafter : ∀ p ∈ after.toList, p.IsBelow ⟨"/out"⟩ := by decide +kernel
  have hbundle : Path.IsChild ⟨"/out/types.d.ts"⟩ ⟨"/out"⟩ := ⟨.name ⟨"types.d.ts", by decide +kernel⟩, by decide +kernel⟩
  have hkeep : ⟨"/out/lib/keep.txt"⟩ ∈ after.toList := by decide +kernel
  exact ⟨hbefore, hafter, hbundle, hkeep, outside_roots_iff hbefore hafter hbundle hkeep⟩

end PathSet

end DeclBundle
