import Mathlib.Data.Finset.Card
import DeclBundle.Proofs.PathSet.Collapse

/-!
Path sets against finite sets of component sequences. Whatever operations make a set, its members are
those of the reference, in the spelling that the reference remembers, and what lies below a member
follows right after it.
-/

namespace DeclBundle.PathSet

open DeclBundle.Path

variable {s t : PathSet} {p q d bundle : Path} {paths l : List Path}

theorem isFree_iff (hl : l.Pairwise fun p q => compare p q = .lt) :
    isFree p l = true ↔ ∀ q ∈ l, p.components ≠ q.components := by
  have hne {q : Path} (h : compare p q ≠ .eq) : p.components ≠ q.components :=
    fun he => h (compare_eq_iff.2 he)
  induction hl with
  | nil => simp [isFree]
  | @cons q rest hq _ ih =>
    rw [isFree, List.forall_mem_cons]
    split
    next hlt =>
      refine iff_of_true rfl ⟨hne (by simp [hlt]), ?_⟩
      intro r hr
      exact hne (by simp [Std.TransCmp.lt_trans hlt (hq r hr)])
    next heq => exact iff_of_false (by simp) fun h => h.1 (compare_eq_iff.1 heq)
    next hgt =>
      rw [and_iff_right (hne (by simp [hgt]))]
      exact ih

theorem isNew_iff : s.isNew p = true ↔ s.contains p = false := by
  rw [isNew, isFree_iff s.increasing, Bool.eq_false_iff, ne_eq, contains_iff]
  simp

theorem mem_place_replacing_iff (hl : l.Pairwise fun p q => compare p q = .lt) :
    q ∈ place true p l ↔ q = p ∨ q ∈ l ∧ q.components ≠ p.components := by
  have hne {q r : Path} (h : compare q r = .lt) : r.components ≠ q.components := by
    intro he
    rw [compare_eq_iff.2 he.symm] at h
    cases h
  induction hl with
  | nil => simp [place]
  | @cons r rest hr _ ih =>
    rw [place]
    split
    next hlt =>
      have hfree : ∀ q ∈ r :: rest, q.components ≠ p.components := by
        intro q hq
        rcases List.mem_cons.1 hq with rfl | hq
        · exact hne hlt
        · exact hne (Std.TransCmp.lt_trans hlt (hr q hq))
      rw [List.mem_cons]
      exact or_congr_right (iff_self_and.2 (hfree q))
    next heq =>
      have heq := compare_eq_iff.1 heq
      have hfree : ∀ q ∈ rest, q.components ≠ p.components := by
        intro q hq
        rw [heq]
        exact hne (hr q hq)
      rw [if_pos rfl, List.mem_cons, List.mem_cons]
      constructor
      · rintro (rfl | hq)
        · exact .inl rfl
        · exact .inr ⟨.inr hq, hfree q hq⟩
      · rintro (rfl | ⟨rfl | hq, hsame⟩)
        · exact .inl rfl
        · exact absurd heq.symm hsame
        · exact .inr hq
    next hgt =>
      rw [List.mem_cons, List.mem_cons]
      have hrp : r.components ≠ p.components := (hne (Std.OrientedCmp.lt_of_gt hgt)).symm
      refine (or_congr_right ih).trans ?_
      constructor
      · rintro (rfl | rfl | ⟨hq, hsame⟩)
        · exact .inr ⟨.inl rfl, hrp⟩
        · exact .inl rfl
        · exact .inr ⟨.inr hq, hsame⟩
      · rintro (rfl | ⟨rfl | hq, hsame⟩)
        · exact .inr (.inl rfl)
        · exact .inl rfl
        · exact .inr (.inr ⟨hq, hsame⟩)

def lastOf (paths : List Path) (c : List Component) : Option Path :=
  (paths.filter (·.components = c)).getLast?

theorem lastOf_cons (p : Path) (paths : List Path) (c : List Component) :
    lastOf (p :: paths) c = (lastOf paths c).or (if p.components = c then some p else none) := by
  rw [lastOf, lastOf, List.filter_cons]
  by_cases h : p.components = c
  · simp [h, List.getLast?_cons]
  · simp [h]

theorem mem_foldl_respell_iff : q ∈ (paths.foldl respell s).toList ↔
    lastOf paths q.components = some q ∨ lastOf paths q.components = none ∧ q ∈ s.toList := by
  induction paths generalizing s with
  | nil => simp [lastOf]
  | cons p paths ih =>
    rw [List.foldl_cons, ih, lastOf_cons, respell, mem_place_replacing_iff s.increasing]
    cases hlast : lastOf paths q.components with
    | some r => simp
    | none =>
      by_cases hc : p.components = q.components
      · simp [hc, eq_comm]
      · have hne : q ≠ p := by
          rintro rfl
          exact hc rfl
        simp [hc, Ne.symm hc, hne]

theorem mem_ofList_iff_lastOf : q ∈ (ofList paths).toList ↔ lastOf paths q.components = some q := by
  have hempty : q ∉ empty.toList := List.not_mem_nil
  rw [ofList, mem_foldl_respell_iff, and_iff_right_of_imp hempty.elim]
  exact or_iff_left hempty

theorem lastOf_eq_none_iff {c : List Component} : lastOf paths c = none ↔ ∀ p ∈ paths, p.components ≠ c := by
  rw [lastOf, List.getLast?_eq_none_iff, List.filter_eq_nil_iff]
  simp

theorem components_of_lastOf {c : List Component} (h : lastOf paths c = some p) : p.components = c := by
  have hmem := List.mem_of_getLast? h
  simpa using (List.mem_filter.1 hmem).2

theorem exists_block (hl : (d :: l).Pairwise fun p q => compare p q = .lt) : ∃ block rest, l = block ++ rest ∧
    (∀ p ∈ block, p.isWithin d = true) ∧ ∀ p ∈ rest, p.isWithin d = false := by
  induction l with
  | nil => exact ⟨[], [], rfl, nofun, nofun⟩
  | cons p l ih =>
    obtain ⟨hd, hpl⟩ := List.pairwise_cons.1 hl
    by_cases hp : p.isWithin d = true
    · obtain ⟨block, rest, rfl, hblock, hrest⟩ := ih (hl.sublist (.cons_cons _ (.cons _ (List.Sublist.refl _))))
      exact ⟨p :: block, rest, rfl, List.forall_mem_cons.2 ⟨hp, hblock⟩, hrest⟩
    · -- nothing within `d` comes after the first path that is not
      refine ⟨[], p :: l, rfl, nofun, ?_⟩
      intro q hq
      rw [Bool.eq_false_iff]
      intro hw
      rcases List.mem_cons.1 hq with rfl | hq
      · exact hp hw
      · exact hp (isWithin_of_between hw (hd p List.mem_cons_self) ((List.pairwise_cons.1 hpl).1 q hq))

theorem exists_block_of_mem (h : d ∈ s.toList) : ∃ front block rest, s.toList = front ++ d :: (block ++ rest) ∧
    (∀ p ∈ block, p.IsBelow d) ∧ ∀ p ∈ front ++ rest, p.isWithin d = false := by
  obtain ⟨front, later, hs⟩ := List.append_of_mem h
  have hinc := s.increasing
  rw [hs, List.pairwise_append] at hinc
  obtain ⟨-, hlater, hfront⟩ := hinc
  obtain ⟨block, rest, rfl, hblock, hrest⟩ := exists_block hlater
  refine ⟨front, block, rest, hs, ?_, ?_⟩
  · intro p hp
    have hlt := (List.pairwise_cons.1 hlater).1 p (List.mem_append_left _ hp)
    refine ⟨hblock p hp, ?_⟩
    rw [Bool.eq_false_iff]
    intro hsame
    rw [compare_eq_iff.2 (same_iff.1 hsame).symm] at hlt
    cases hlt
  · intro p hp
    rcases List.mem_append.1 hp with hp | hp
    · exact not_isWithin_of_lt (hfront p hp d List.mem_cons_self)
    · exact hrest p hp

structure Reference where
  members : Finset (List Component)
  spelling : List Component → Option Path

namespace Reference

def empty : Reference :=
  ⟨∅, fun _ => none⟩

def insert (r : Reference) (p : Path) : Reference :=
  if p.components ∈ r.members then r
  else ⟨Insert.insert p.components r.members, fun c => if c = p.components then some p else r.spelling c⟩

def ofList (paths : List Path) : Reference :=
  ⟨(paths.map components).toFinset, lastOf paths⟩

def difference (r other : Reference) : Reference :=
  ⟨r.members \ other.members, r.spelling⟩

def roots (r : Reference) : Reference :=
  ⟨r.members.filter fun c => ∀ c' ∈ r.members, c' <+: c → c' = c, r.spelling⟩

def deletionSet (before after : Reference) (bundle : Path) : Reference :=
  ⟨(after.members \ before.members).erase bundle.components, after.spelling⟩

end Reference

inductive Expr
  | empty
  | insert (e : Expr) (p : Path)
  | ofList (paths : List Path)
  | difference (e other : Expr)
  | roots (e : Expr)
  | deletionSet (before after : Expr) (bundle : Path)

namespace Expr

def eval : Expr → PathSet
  | empty => .empty
  | insert e p => e.eval.insert p
  | ofList paths => .ofList paths
  | difference e other => e.eval.difference other.eval
  | roots e => e.eval.roots
  | deletionSet before after bundle => .deletionSet before.eval after.eval bundle

def reference : Expr → Reference
  | empty => .empty
  | insert e p => e.reference.insert p
  | ofList paths => .ofList paths
  | difference e other => e.reference.difference other.reference
  | roots e => e.reference.roots
  | deletionSet before after bundle => .deletionSet before.reference after.reference bundle

end Expr

/-- A set holds what its reference says, each member in the spelling the reference gives it. -/
def Represents (s : PathSet) (r : Reference) : Prop :=
  (∀ c ∈ r.members, ∃ p, r.spelling c = some p ∧ p.components = c) ∧
    ∀ p, p ∈ s.toList ↔ p.components ∈ r.members ∧ r.spelling p.components = some p

namespace Represents

variable {r r' : Reference} {c : List Component}

theorem mem_members_iff (h : s.Represents r) : c ∈ r.members ↔ ∃ p ∈ s.toList, p.components = c := by
  constructor
  · intro hc
    obtain ⟨p, hp, rfl⟩ := h.1 c hc
    exact ⟨p, (h.2 p).2 ⟨hc, hp⟩, rfl⟩
  · rintro ⟨p, hp, rfl⟩
    exact ((h.2 p).1 hp).1

theorem contains_iff (h : s.Represents r) : s.contains p = true ↔ p.components ∈ r.members := by
  rw [PathSet.contains_iff, h.mem_members_iff]
  simp only [eq_comm]

theorem size_eq (h : s.Represents r) : s.size = r.members.card := by
  have hnodup : (s.toList.map components).Nodup := by
    rw [List.nodup_map_iff_inj_on s.nodup]
    exact fun p hp q hq => eq_of_components hp hq
  have hmembers : r.members = (s.toList.map components).toFinset := by
    ext c
    simp [h.mem_members_iff]
  rw [hmembers, List.toFinset_card_of_nodup hnodup, List.length_map, size]

theorem insert (h : s.Represents r) (p : Path) : (s.insert p).Represents (r.insert p) := by
  rw [Reference.insert]
  split
  next hmem =>
    refine ⟨h.1, fun q => ?_⟩
    rw [mem_insert_iff, ← h.2 q, h.contains_iff.2 hmem]
    simp
  next hnew =>
    have hfree : s.contains p = false := by
      rw [Bool.eq_false_iff, ne_eq, h.contains_iff]
      exact hnew
    constructor
    · intro c hc
      by_cases heq : c = p.components
      · exact ⟨p, by simp [heq], heq.symm⟩
      · obtain ⟨q, hq, hqc⟩ := h.1 c ((Finset.mem_insert.1 hc).resolve_left heq)
        exact ⟨q, by simp [heq, hq], hqc⟩
    · intro q
      rw [mem_insert_iff, hfree, h.2 q, Finset.mem_insert]
      by_cases heq : q.components = p.components
      · simp [heq, hnew, eq_comm]
      · have hne : q ≠ p := fun he => heq (congrArg components he)
        simp [heq, hne]

theorem ofList (paths : List Path) : (PathSet.ofList paths).Represents (.ofList paths) := by
  constructor
  · intro c hc
    obtain ⟨p, hp, rfl⟩ := List.mem_map.1 (List.mem_toFinset.1 hc)
    cases hlast : lastOf paths p.components with
    | none => exact absurd rfl (lastOf_eq_none_iff.1 hlast p hp)
    | some q => exact ⟨q, hlast, components_of_lastOf hlast⟩
  · intro p
    rw [mem_ofList_iff_lastOf]
    refine (and_iff_right_of_imp ?_).symm
    intro hlast
    have hmem := (List.mem_filter.1 (List.mem_of_getLast? hlast)).1
    exact List.mem_toFinset.2 (List.mem_map_of_mem hmem)

theorem part {members : Finset (List Component)} (h : s.Represents r) (hsub : members ⊆ r.members)
    (hmem : ∀ p, p ∈ t.toList ↔ p ∈ s.toList ∧ p.components ∈ members) : t.Represents ⟨members, r.spelling⟩ := by
  refine ⟨fun c hc => h.1 c (hsub hc), ?_⟩
  intro p
  rw [hmem, h.2]
  constructor
  · rintro ⟨⟨-, hspelled⟩, hp⟩
    exact ⟨hp, hspelled⟩
  · rintro ⟨hp, hspelled⟩
    exact ⟨⟨hsub hp, hspelled⟩, hp⟩

theorem difference (h : s.Represents r) (h' : t.Represents r') :
    (s.difference t).Represents (r.difference r') := by
  apply h.part Finset.sdiff_subset
  intro p
  rw [PathSet.difference, mem_filter_iff, Finset.mem_sdiff, ← h.contains_iff, ← h'.contains_iff]
  constructor
  · rintro ⟨hp, hnot⟩
    exact ⟨hp, contains_of_mem hp, by simpa using hnot⟩
  · rintro ⟨hp, -, hnot⟩
    exact ⟨hp, by simpa using hnot⟩

theorem roots (h : s.Represents r) : s.roots.Represents r.roots := by
  apply h.part (Finset.filter_subset _ _)
  intro p
  rw [mem_roots_iff, Finset.mem_filter]
  apply and_congr_right
  intro hp
  have hmem : p.components ∈ r.members := ((h.2 p).1 hp).1
  rw [and_iff_right hmem]
  constructor
  · intro hfree c hc hprefix
    obtain ⟨q, hq, rfl⟩ := h.mem_members_iff.1 hc
    by_cases heq : q = p
    · rw [heq]
    · have hnot := hfree q hq heq
      rw [isWithin_iff.2 hprefix] at hnot
      cases hnot
  · intro hfree q hq hne
    rw [Bool.eq_false_iff]
    intro hw
    exact hne (eq_of_components hq hp (hfree _ ((h.2 q).1 hq).1 (isWithin_iff.1 hw)))

theorem deletionSet (h : s.Represents r) (h' : t.Represents r') (bundle : Path) :
    (PathSet.deletionSet s t bundle).Represents (.deletionSet r r' bundle) := by
  apply h'.part ((Finset.erase_subset _ _).trans Finset.sdiff_subset)
  intro p
  have hsame : p.same bundle = false ↔ p.components ≠ bundle.components := by
    rw [Bool.eq_false_iff, ne_eq, same_iff]
  rw [mem_deletionSet_iff, Finset.mem_erase, Finset.mem_sdiff, ← h.contains_iff, ← h'.contains_iff, hsame,
    Bool.not_eq_true]
  constructor
  · rintro ⟨hp, hne, hnew⟩
    exact ⟨hp, hne, contains_of_mem hp, hnew⟩
  · rintro ⟨hp, hne, -, hnew⟩
    exact ⟨hp, hne, hnew⟩

end Represents

theorem Expr.represents (e : Expr) : e.eval.Represents e.reference := by
  induction e with
  | empty => exact ⟨by simp [reference, Reference.empty], by simp [eval, reference, Reference.empty, PathSet.empty]⟩
  | insert e p ih => exact ih.insert p
  | ofList paths => exact .ofList paths
  | difference e other ih ih' => exact ih.difference ih'
  | roots e ih => exact ih.roots
  | deletionSet before after bundle ih ih' => exact ih.deletionSet ih' bundle

/-- Whatever operations make a set, it increases strictly and has the members of its reference, in the
spellings that came first or last as the operation has it; a path is new to it exactly if no equal one is a
member; and the members below a member come right after it, with nothing between them. -/
theorem eval_represents (e : Expr) :
    (e.eval.toList.Pairwise fun p q => compare p.components q.components = .lt) ∧
    (∀ p, e.eval.contains p = true ↔ p.components ∈ e.reference.members) ∧
    e.eval.size = e.reference.members.card ∧
    (∀ p, p ∈ e.eval.toList ↔ p.components ∈ e.reference.members ∧ e.reference.spelling p.components = some p) ∧
    (∀ p, e.eval.isNew p = true ↔ p.components ∉ e.reference.members) ∧
    ∀ d ∈ e.eval.toList, ∃ front block rest, e.eval.toList = front ++ d :: (block ++ rest) ∧
      (∀ p ∈ block, p.IsBelow d) ∧ ∀ p ∈ front ++ rest, p.isWithin d = false := by
  have h := e.represents
  refine ⟨e.eval.increasing, fun _ => h.contains_iff, h.size_eq, h.2, ?_, fun _ => exists_block_of_mem⟩
  intro p
  rw [isNew_iff, Bool.eq_false_iff, ne_eq, h.contains_iff]

theorem eval_represents_sample :
    let e := Expr.insert (.ofList [⟨"a/b"⟩, ⟨"a//b"⟩, ⟨"a-b"⟩]) ⟨"a"⟩
    e.eval.toList = [⟨"a"⟩, ⟨"a//b"⟩, ⟨"a-b"⟩] ∧ ⟨"a"⟩ ∈ e.eval.toList ∧
      ∃ front block rest, e.eval.toList = front ++ ⟨"a"⟩ :: (block ++ rest) ∧
        (∀ p ∈ block, p.IsBelow ⟨"a"⟩) ∧ ∀ p ∈ front ++ rest, p.isWithin ⟨"a"⟩ = false := by
  intro e
  have hlist : e.eval.toList = [⟨"a"⟩, ⟨"a//b"⟩, ⟨"a-b"⟩] := by decide +kernel
  have hmem : ⟨"a"⟩ ∈ e.eval.toList := by
    rw [hlist]
    exact List.mem_cons_self
  exact ⟨hlist, hmem, (eval_represents e).2.2.2.2.2 ⟨"a"⟩ hmem⟩

example : (Expr.roots (.insert (.ofList [⟨"a/b"⟩, ⟨"a//b"⟩, ⟨"a-b"⟩]) ⟨"a/./b"⟩)).eval.toList = [⟨"a//b"⟩, ⟨"a-b"⟩] := by
  decide +kernel

end DeclBundle.PathSet
