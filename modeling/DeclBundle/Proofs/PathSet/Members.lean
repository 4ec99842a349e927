import DeclBundle.PathSet

namespace DeclBundle

namespace Path

theorem compare_eq_iff {p q : Path} : compare p q = .eq ↔ p.components = q.components :=
  Std.LawfulEqOrd.compare_eq_iff_eq (α := List Component)

theorem same_iff {p q : Path} : p.same q = true ↔ p.components = q.components := by
  rw [same, decide_eq_true_eq]

end Path

namespace PathSet

variable {s t : PathSet} {p q : Path} {paths : List Path}

theorem nodup (s : PathSet) : s.toList.Nodup := by
  apply s.increasing.imp
  rintro p _ h rfl
  simp at h

theorem eq_of_components (hp : p ∈ s.toList) (hq : q ∈ s.toList) (h : p.components = q.components) : p = q := by
  have hforth : s.toList.Pairwise fun p q => p.components = q.components → p = q := by
    apply s.increasing.imp
    intro p q hlt heq
    simp [Path.compare_eq_iff.2 heq] at hlt
  have hback : s.toList.Pairwise fun p q => q.components = p.components → q = p := by
    apply hforth.imp
    intro p q h heq
    exact (h heq.symm).symm
  exact hforth.forall_of_forall_of_flip (fun _ _ _ => rfl) hback hp hq h

theorem ext_mem (h : ∀ p, p ∈ s.toList ↔ p ∈ t.toList) : s = t := by
  have hperm := (List.perm_ext_iff_of_nodup s.nodup t.nodup).2 h
  have heq : s.toList = t.toList := by
    apply hperm.eq_of_pairwise _ s.increasing t.increasing
    intro p q _ _ hpq hqp
    simp [Std.OrientedCmp.gt_of_lt hpq] at hqp
  cases s
  cases t
  simpa using heq

theorem contains_iff : s.contains p = true ↔ ∃ q ∈ s.toList, p.components = q.components := by
  simp [contains, Path.same_iff]

theorem contains_of_mem (h : p ∈ s.toList) : s.contains p = true :=
  contains_iff.2 ⟨p, h, rfl⟩

theorem components_mem_place {replacing : Bool} {l : List Path} (h : q ∈ l) :
    ∃ r ∈ place replacing p l, q.components = r.components := by
  induction l with
  | nil => cases h
  | cons r rest ih =>
    rw [place]
    split
    · exact ⟨q, List.mem_cons_of_mem _ h, rfl⟩
    next heq =>
      have heq := Path.compare_eq_iff.1 heq
      rcases List.mem_cons.1 h with rfl | h
      · cases replacing
        · exact ⟨q, List.mem_cons_self, rfl⟩
        · exact ⟨p, List.mem_cons_self, heq.symm⟩
      · exact ⟨q, List.mem_cons_of_mem _ h, rfl⟩
    next =>
      rcases List.mem_cons.1 h with rfl | h
      · exact ⟨q, List.mem_cons_self, rfl⟩
      · obtain ⟨r', hr', he⟩ := ih h
        exact ⟨r', List.mem_cons_of_mem _ hr', he⟩

theorem self_mem_place {replacing : Bool} {l : List Path} :
    ∃ r ∈ place replacing p l, p.components = r.components := by
  induction l with
  | nil => exact ⟨p, by simp [place], rfl⟩
  | cons r rest ih =>
    rw [place]
    split
    · exact ⟨p, List.mem_cons_self, rfl⟩
    next heq =>
      cases replacing
      · exact ⟨r, List.mem_cons_self, Path.compare_eq_iff.1 heq⟩
      · exact ⟨p, List.mem_cons_self, rfl⟩
    next =>
      obtain ⟨r', hr', he⟩ := ih
      exact ⟨r', List.mem_cons_of_mem _ hr', he⟩

theorem mem_foldl_respell (h : q ∈ (paths.foldl respell s).toList) : q ∈ paths ∨ q ∈ s.toList := by
  induction paths generalizing s with
  | nil => exact .inr h
  | cons p paths ih =>
    rcases ih h with h | h
    · exact .inl (List.mem_cons_of_mem _ h)
    · rcases mem_place h with rfl | h
      · exact .inl List.mem_cons_self
      · exact .inr h

theorem components_mem_foldl_respell (h : q ∈ paths ∨ q ∈ s.toList) :
    ∃ r ∈ (paths.foldl respell s).toList, q.components = r.components := by
  induction paths generalizing s q with
  | nil => exact ⟨q, h.resolve_left (by simp), rfl⟩
  | cons p paths ih =>
    have hstep (r : Path) (hr : r ∈ (s.respell p).toList) :
        ∃ r' ∈ ((p :: paths).foldl respell s).toList, r.components = r'.components := ih (.inr hr)
    rcases h with h | h
    · rcases List.mem_cons.1 h with rfl | h
      · obtain ⟨r, hr, he⟩ : ∃ r ∈ place true q s.toList, _ := self_mem_place
        obtain ⟨r', hr', he'⟩ := hstep r hr
        exact ⟨r', hr', he.trans he'⟩
      · exact ih (.inl h)
    · obtain ⟨r, hr, he⟩ : ∃ r ∈ place true p s.toList, _ := components_mem_place h
      obtain ⟨r', hr', he'⟩ := hstep r hr
      exact ⟨r', hr', he.trans he'⟩

theorem mem_of_mem_ofList (h : q ∈ (ofList paths).toList) : q ∈ paths :=
  (mem_foldl_respell h).resolve_right (by rintro ⟨⟩)

theorem mem_ofList_iff (hpaths : ∀ p ∈ paths, ∀ q ∈ paths, p.components = q.components → p = q) :
    q ∈ (ofList paths).toList ↔ q ∈ paths := by
  constructor
  · exact mem_of_mem_ofList
  · intro h
    obtain ⟨r, hr, he⟩ := components_mem_foldl_respell (s := empty) (.inl h)
    rwa [hpaths q h r (mem_of_mem_ofList hr) he]

theorem mem_place_iff {l : List Path} (hl : l.Pairwise fun p q => compare p q = .lt) :
    q ∈ place false p l ↔ q ∈ l ∨ (q = p ∧ ∀ r ∈ l, p.components ≠ r.components) := by
  have hne {r : Path} (h : compare p r ≠ .eq) : p.components ≠ r.components :=
    fun he => h (Path.compare_eq_iff.2 he)
  induction hl with
  | nil => simp [place]
  | @cons r rest hr _ ih =>
    rw [place]
    split
    next hlt =>
      have hfree : ∀ r' ∈ r :: rest, p.components ≠ r'.components := by
        intro r' hr'
        rcases List.mem_cons.1 hr' with rfl | hr'
        · exact hne (by simp [hlt])
        · exact hne (by simp [Std.TransCmp.lt_trans hlt (hr r' hr')])
      rw [List.mem_cons]
      constructor
      · rintro (rfl | h)
        · exact .inr ⟨rfl, hfree⟩
        · exact .inl h
      · rintro (h | ⟨rfl, _⟩)
        · exact .inr h
        · exact .inl rfl
    next heq =>
      have hnot : ¬∀ r' ∈ r :: rest, p.components ≠ r'.components :=
        fun h => h r List.mem_cons_self (Path.compare_eq_iff.1 heq)
      rw [iff_false_intro hnot, and_false, or_false]
      rfl
    next hgt =>
      rw [List.mem_cons, List.mem_cons, List.forall_mem_cons, and_iff_right (hne (by simp [hgt])), or_assoc]
      exact or_congr_right ih

theorem mem_insert_iff : q ∈ (s.insert p).toList ↔ q ∈ s.toList ∨ (q = p ∧ s.contains p = false) := by
  rw [insert, mem_place_iff s.increasing, Bool.eq_false_iff, ne_eq, contains_iff]
  simp

theorem mem_insert_of_spelled (h : s.contains p = true → p ∈ s.toList) :
    q ∈ (s.insert p).toList ↔ q ∈ s.toList ∨ q = p := by
  rw [mem_insert_iff]
  constructor
  · rintro (hq | ⟨rfl, -⟩)
    · exact .inl hq
    · exact .inr rfl
  · rintro (hq | rfl)
    · exact .inl hq
    · cases hc : s.contains q with
      | true => exact .inl (h hc)
      | false => exact .inr ⟨rfl, rfl⟩

theorem mem_filter_iff {keep : Path → Bool} : q ∈ (s.filter keep).toList ↔ q ∈ s.toList ∧ keep q = true :=
  List.mem_filter

theorem mem_deletionSet_iff {bundle : Path} : q ∈ (deletionSet s t bundle).toList ↔
    q ∈ t.toList ∧ q.same bundle = false ∧ s.contains q = false := by
  simp [deletionSet, mem_filter_iff]

end PathSet

end DeclBundle
