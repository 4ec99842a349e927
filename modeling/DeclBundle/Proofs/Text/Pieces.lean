import DeclBundle.Text.Pieces

namespace DeclBundle.Text.Pieces

variable {sep : Char → Bool} {s : Char} {p : Pieces} {piece : List Char}

theorem cut_append_of_forall (h : ∀ c ∈ piece, sep c = false) (rest : List Char) :
    cut sep (piece ++ rest) = ⟨piece ++ (cut sep rest).first, (cut sep rest).rest⟩ := by
  induction piece with
  | nil => rfl
  | cons c piece ih =>
    have hc := h c List.mem_cons_self
    rw [List.cons_append, cut_cons, ih fun d hd => h d (List.mem_cons_of_mem _ hd)]
    simp [cons, hc]

theorem cut_append_sep (hs : sep s = true) (before after : List Char) : cut sep (before ++ s :: after) =
    ⟨(cut sep before).first, (cut sep before).rest ++ (s, (cut sep after).first) :: (cut sep after).rest⟩ := by
  induction before with
  | nil => simp [cons, hs, empty]
  | cons c before ih =>
    rw [List.cons_append, cut_cons, ih, cut_cons]
    by_cases hc : sep c = true
    · simp [cons, hc]
    · simp [cons, hc]

theorem toList_cut_of_forall (h : ∀ c ∈ piece, sep c = false) : (cut sep piece).toList = [piece] := by
  have hcut := cut_append_of_forall h []
  rw [List.append_nil] at hcut
  simp [hcut, empty, toList]

theorem toList_cut_append_sep (hs : sep s = true) (before after : List Char) :
    (cut sep (before ++ s :: after)).toList = (cut sep before).toList ++ (cut sep after).toList := by
  simp [cut_append_sep hs, toList]

theorem toList_cut_intercalate (hs : sep s = true) {pieces : List (List Char)} (hne : pieces ≠ [])
    (h : ∀ piece ∈ pieces, ∀ c ∈ piece, sep c = false) :
    (cut sep ([s].intercalate pieces)).toList = pieces := by
  induction pieces with
  | nil => exact absurd rfl hne
  | cons piece rest ih =>
    have hp := h piece List.mem_cons_self
    by_cases hr : rest = []
    · subst hr
      rw [List.intercalate_singleton, toList_cut_of_forall hp]
    · rw [List.intercalate_cons_of_ne_nil hr, List.append_assoc, List.singleton_append,
        toList_cut_append_sep hs, toList_cut_of_forall hp, List.singleton_append,
        ih hr fun q hq => h q (List.mem_cons_of_mem _ hq)]

theorem separators_cut (sep : Char → Bool) (text : List Char) : (cut sep text).separators = text.filter sep := by
  induction text with
  | nil => rfl
  | cons c text ih =>
    rw [separators] at ih
    by_cases hc : sep c = true
    · simp [cons, separators, hc, ih]
    · simp [cons, separators, hc, ih]

theorem sep_of_mem_separators {text : List Char} (h : s ∈ (cut sep text).separators) : sep s = true := by
  rw [separators_cut] at h
  exact (List.mem_filter.1 h).2

theorem map_of_forall {f : List Char → List Char} (h : ∀ piece ∈ p.toList, f piece = piece) : p.map f = p := by
  have hfirst : f p.first = p.first := h p.first List.mem_cons_self
  have hrest : p.rest.map (fun s => (s.1, f s.2)) = p.rest.map id := by
    apply List.map_congr_left
    intro s hs
    exact congrArg (s.1, ·) (h s.2 (List.mem_cons_of_mem _ (List.mem_map_of_mem hs)))
  rw [List.map_id] at hrest
  exact congr (congrArg Pieces.mk hfirst) hrest

@[simp] theorem join_nil (first : List Char) : join ⟨first, []⟩ = first := by
  simp [join]

theorem join_cons_rest (first : List Char) (s : Char) (piece : List Char) (rest : List (Char × List Char)) :
    join ⟨first, (s, piece) :: rest⟩ = first ++ s :: join ⟨piece, rest⟩ := by
  simp [join]

theorem head?_join (p : Pieces) : p.join.head? = p.first.head?.or p.separators.head? := by
  obtain ⟨first, rest⟩ := p
  cases rest with
  | nil => simp [separators]
  | cons head rest => simp [join, separators]

def last (p : Pieces) : List Char :=
  (p.rest.getLast?.map Prod.snd).getD p.first

theorem last_mem (p : Pieces) : p.last ∈ p.toList := by
  obtain ⟨first, rest⟩ := p
  rcases List.eq_nil_or_concat rest with rfl | ⟨front, ⟨s, piece⟩, rfl⟩
  · simp [last, toList]
  · simp [last, toList]

theorem last_map (f : List Char → List Char) (p : Pieces) : (p.map f).last = f p.last := by
  obtain ⟨first, rest⟩ := p
  rcases List.eq_nil_or_concat rest with rfl | ⟨front, ⟨s, piece⟩, rfl⟩
  · simp [last, map]
  · simp [last, map]

theorem getLast?_join (p : Pieces) : p.join.getLast? = p.last.getLast?.or p.separators.getLast? := by
  obtain ⟨first, rest⟩ := p
  rcases List.eq_nil_or_concat rest with rfl | ⟨front, ⟨s, piece⟩, rfl⟩
  · simp [last, separators]
  · simp [join, last, separators, List.getLast?_append, List.getLast?_cons]

theorem cut_join (hpieces : ∀ piece ∈ p.toList, ∀ c ∈ piece, sep c = false)
    (hseparators : ∀ c ∈ p.separators, sep c = true) : cut sep p.join = p := by
  obtain ⟨first, rest⟩ := p
  induction rest generalizing first with
  | nil =>
    have hcut := cut_append_of_forall (hpieces first List.mem_cons_self) []
    simpa [empty] using hcut
  | cons head rest ih =>
    obtain ⟨s, piece⟩ := head
    have hs : sep s = true := hseparators s List.mem_cons_self
    have hrest : cut sep (join ⟨piece, rest⟩) = ⟨piece, rest⟩ :=
      ih piece (fun q hq => hpieces q (List.mem_cons_of_mem _ hq)) fun c hc => hseparators c (List.mem_cons_of_mem _ hc)
    rw [join_cons_rest, cut_append_of_forall (hpieces first List.mem_cons_self), cut_cons, hrest]
    simp [cons, hs]

theorem cut_join_map {f : List Char → List Char}
    (hf : ∀ piece, (∀ c ∈ piece, sep c = false) → ∀ c ∈ f piece, sep c = false) (text : List Char) :
    cut sep ((cut sep text).map f).join = (cut sep text).map f := by
  apply cut_join
  · rw [toList_map]
    intro piece h
    obtain ⟨before, hbefore, rfl⟩ := List.mem_map.1 h
    exact hf before (not_sep_of_mem_cut hbefore)
  · rw [separators_map]
    exact fun _ => sep_of_mem_separators

end DeclBundle.Text.Pieces
