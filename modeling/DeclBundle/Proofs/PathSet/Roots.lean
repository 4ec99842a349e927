import DeclBundle.Proofs.PathSet.Members

namespace DeclBundle

namespace Path

variable {p q r : Path}

theorem isWithin_iff : p.isWithin q = true ↔ q.components <+: p.components := by
  rw [isWithin, List.isPrefixOf_iff_prefix]

theorem isWithin_refl (p : Path) : p.isWithin p = true :=
  isWithin_iff.2 (List.prefix_refl _)

theorem isWithin_trans (hpq : p.isWithin q = true) (hqr : q.isWithin r = true) : p.isWithin r = true :=
  isWithin_iff.2 ((isWithin_iff.1 hqr).trans (isWithin_iff.1 hpq))

end Path

theorem compare_prefix_ne_gt {a c : List Path.Component} (h : a <+: c) : compare a c ≠ .gt := by
  obtain ⟨rest, rfl⟩ := h
  rw [List.compare_eq_compareLex]
  induction a with
  | nil =>
    cases rest with
    | nil => simp [List.compareLex_nil_nil]
    | cons y rest => simp [List.compareLex_nil_cons]
  | cons x a ih => simpa [List.compareLex_cons_cons] using ih

theorem prefix_of_between {a b c : List Path.Component} (h : a <+: c) (hab : compare a b ≠ .gt)
    (hbc : compare b c ≠ .gt) : a <+: b := by
  induction a generalizing b c with
  | nil => exact List.nil_prefix
  | cons x a ih =>
    obtain ⟨rest, rfl⟩ := h
    rw [List.compare_eq_compareLex] at hab hbc
    cases b with
    | nil => exact absurd List.compareLex_cons_nil hab
    | cons y b =>
      rw [List.compareLex_cons_cons] at hab
      rw [List.cons_append, List.compareLex_cons_cons] at hbc
      have hxy : compare x y = .eq := by
        cases hx : compare x y with
        | eq => rfl
        | lt => simp [Std.OrientedCmp.gt_of_lt hx] at hbc
        | gt => simp [hx] at hab
      obtain rfl := Std.LawfulEqOrd.eq_of_compare hxy
      simp only [hxy, ← List.compare_eq_compareLex] at hab hbc
      simp [ih (List.prefix_append a rest) hab hbc]

namespace PathSet

variable {s : PathSet} {p q r root : Path} {l : List Path}

theorem isWithin_of_between (h : r.isWithin root = true) (hp : compare root p = .lt)
    (hr : compare p r = .lt) : p.isWithin root = true := by
  have hbefore : compare root.components p.components = .lt := hp
  have hafter : compare p.components r.components = .lt := hr
  apply Path.isWithin_iff.2
  apply prefix_of_between (Path.isWithin_iff.1 h)
  · simp [hbefore]
  · simp [hafter]

theorem not_isWithin_of_lt (h : compare p q = .lt) : p.isWithin q = false := by
  rw [Bool.eq_false_iff]
  intro hw
  have hgt : compare q p = .gt := Std.OrientedCmp.gt_of_lt h
  exact compare_prefix_ne_gt (Path.isWithin_iff.1 hw) hgt

theorem exists_root_of_mem {last : Option Path} (h : p ∈ l) :
    (∃ root, last = some root ∧ p.isWithin root = true) ∨ ∃ r ∈ rootsAfter last l, p.isWithin r = true := by
  fun_induction rootsAfter last l with
  | case1 => cases h
  | case2 q rest ih =>
    rcases List.mem_cons.1 h with rfl | h
    · exact .inr ⟨p, List.mem_cons_self, Path.isWithin_refl p⟩
    · rcases ih h with ⟨_, ⟨⟩, hw⟩ | ⟨r, hr, hw⟩
      · exact .inr ⟨q, List.mem_cons_self, hw⟩
      · exact .inr ⟨r, List.mem_cons_of_mem _ hr, hw⟩
  | case3 root q rest hq ih =>
    rcases List.mem_cons.1 h with rfl | h
    · exact .inl ⟨root, rfl, hq⟩
    · exact ih h
  | case4 root q rest hq ih =>
    rcases List.mem_cons.1 h with rfl | h
    · exact .inr ⟨p, List.mem_cons_self, Path.isWithin_refl p⟩
    · rcases ih h with ⟨_, ⟨⟩, hw⟩ | ⟨r, hr, hw⟩
      · exact .inr ⟨q, List.mem_cons_self, hw⟩
      · exact .inr ⟨r, List.mem_cons_of_mem _ hr, hw⟩

theorem not_isWithin_of_mem_rootsAfter (hl : (root :: l).Pairwise fun p q => compare p q = .lt)
    (h : r ∈ rootsAfter (some root) l) : r.isWithin root = false := by
  induction l with
  | nil => cases h
  | cons p rest ih =>
    have hroot := (List.pairwise_cons.1 hl).1
    have hrest := (List.pairwise_cons.1 hl).2
    rw [rootsAfter] at h
    split at h
    next hp =>
      exact ih (hl.sublist (.cons_cons _ (.cons _ (List.Sublist.refl _)))) h
    next hp =>
      have hp : p.isWithin root = false := by simpa using hp
      rcases List.mem_cons.1 h with rfl | h
      · exact hp
      · -- what lies within the root comes right after it, so nothing does after a path that does not
        have hpr := (List.pairwise_cons.1 hrest).1 r ((rootsAfter_sublist _ _).subset h)
        rw [Bool.eq_false_iff]
        intro hw
        simp [isWithin_of_between hw (hroot p List.mem_cons_self) hpr] at hp

theorem pairwise_rootsAfter {last : Option Path} (hl : l.Pairwise fun p q => compare p q = .lt) :
    (rootsAfter last l).Pairwise fun p q => q.isWithin p = false := by
  fun_induction rootsAfter last l with
  | case1 => exact .nil
  | case2 p rest ih =>
    apply List.pairwise_cons.2
    exact ⟨fun r hr => not_isWithin_of_mem_rootsAfter hl hr, ih hl.of_cons⟩
  | case3 root p rest _ ih => exact ih hl.of_cons
  | case4 root p rest _ ih =>
    apply List.pairwise_cons.2
    exact ⟨fun r hr => not_isWithin_of_mem_rootsAfter hl hr, ih hl.of_cons⟩

theorem mem_of_mem_roots (h : r ∈ s.roots.toList) : r ∈ s.toList :=
  (rootsAfter_sublist none s.toList).subset h

theorem exists_root (h : p ∈ s.toList) : ∃ r ∈ s.roots.toList, p.isWithin r = true :=
  Or.resolve_left (exists_root_of_mem h) (by rintro ⟨_, ⟨⟩, _⟩)

theorem eq_of_isWithin_root (hp : p ∈ s.roots.toList) (hq : q ∈ s.roots.toList)
    (h : p.isWithin q = true) : p = q := by
  have hforth : s.roots.toList.Pairwise fun p q => p.isWithin q = true → p = q := by
    apply s.roots.increasing.imp
    intro p q hlt hw
    simp [not_isWithin_of_lt hlt] at hw
  have hback : s.roots.toList.Pairwise fun p q => q.isWithin p = true → q = p := by
    apply (pairwise_rootsAfter s.increasing).imp
    intro p q hno hw
    simp [hno] at hw
  exact hforth.forall_of_forall_of_flip (fun _ _ _ => rfl) hback hp hq h

theorem pairwise_roots (s : PathSet) :
    s.roots.toList.Pairwise fun p q => p.isWithin q = false ∧ q.isWithin p = false := by
  apply (nodup _).imp_of_mem
  intro p q hp hq hne
  rw [Bool.eq_false_iff, Bool.eq_false_iff]
  refine ⟨fun hw => ?_, fun hw => ?_⟩
  · exact hne (eq_of_isWithin_root hp hq hw)
  · exact hne (eq_of_isWithin_root hq hp hw).symm

end PathSet

end DeclBundle
