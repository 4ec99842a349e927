import DeclBundle.Proofs.Location
import DeclBundle.Proofs.Results

namespace DeclBundle

namespace Path

variable {p q base child : Path} {cwd l : Location} {n : Name} {lead : Lead} {body front : List String}

theorem segments_empty : segments ⟨""⟩ = [""] := by
  rfl

theorem segments_append_slash (a b : String) : segments ⟨a ++ "/" ++ b⟩ = segments ⟨a⟩ ++ segments ⟨b⟩ := by
  have htext : (a ++ "/" ++ b).toList = a.toList ++ '/' :: b.toList := by simp
  rw [segments, segments, segments, htext, Text.Pieces.toList_cut_append_sep (by rfl), List.map_append]

theorem isSlash_of_mem_segments {segment : String} (h : segment ∈ p.segments) :
    ∀ c ∈ segment.toList, isSlash c = false := by
  obtain ⟨piece, hpiece, rfl⟩ := List.mem_map.1 h
  simpa using Text.Pieces.not_sep_of_mem_cut hpiece

theorem segments_intercalate {segments' : List String} (hne : segments' ≠ [])
    (hfree : ∀ segment ∈ segments', ∀ c ∈ segment.toList, isSlash c = false) :
    segments ⟨"/".intercalate segments'⟩ = segments' := by
  have htext : ("/".intercalate segments').toList = ['/'].intercalate (segments'.map String.toList) := by
    rw [String.toList_intercalate]
    rfl
  rw [segments, htext, Text.Pieces.toList_cut_intercalate (by rfl) (by simpa using hne)]
  · simp [Function.comp_def]
  · intro piece hpiece
    obtain ⟨segment, hs, rfl⟩ := List.mem_map.1 hpiece
    exact hfree segment hs

theorem isAbsolute_iff_lead : p.isAbsolute = true ↔ p.split.1 = .absolute := by
  rw [isAbsolute, decide_eq_true_eq]

theorem isAbsolute_iff_segments : p.isAbsolute = true ↔ ∃ segment rest, p.segments = "" :: segment :: rest := by
  rw [isAbsolute_iff_lead, split]
  split
  next h => simp [h]
  next h => simp [h]
  next h _ => simpa using h

theorem isAbsolute_iff : p.isAbsolute = true ↔ p.text.toList.head? = some '/' := by
  rw [isAbsolute_iff_segments, segments]
  cases p.text.toList with
  | nil => simp [Text.Pieces.toList, Text.Pieces.empty]
  | cons c rest =>
    by_cases hc : c = '/'
    · simp [hc, Text.Pieces.cons, isSlash, Text.Pieces.toList]
    · simp [hc, Text.Pieces.cons, isSlash, Text.Pieces.toList]

theorem text_ne_empty_of_isAbsolute (h : p.isAbsolute = true) : p.text ≠ "" := by
  intro hempty
  simp [isAbsolute_iff, hempty] at h

def enter (l : Location) (segment : String) : Location :=
  match component? segment with
  | some c => c.step l
  | none => l

theorem enter_of_none {segment : String} (h : component? segment = none) (l : Location) : enter l segment = l := by
  rw [enter, h]

def Lead.opening : Lead → List String
  | absolute => [""]
  | current => ["."]
  | plain => []

theorem segments_eq_append (p : Path) : p.segments = p.split.1.opening ++ p.split.2 := by
  rw [split]
  split
  next h => rw [h]; rfl
  next h => rw [h]; rfl
  next => rfl

theorem foldl_enter_opening (lead : Lead) (l : Location) : lead.opening.foldl enter l = l := by
  cases lead with
  | plain => rfl
  | _ => rw [Lead.opening, List.foldl_cons, enter_of_none (by decide), List.foldl_nil]

theorem foldl_enter_segments (p : Path) (l : Location) : p.segments.foldl enter l = p.split.2.foldl enter l := by
  rw [segments_eq_append, List.foldl_append, foldl_enter_opening]

theorem locate_eq_foldl (cwd : Location) (p : Path) :
    p.locate cwd = (p.split.2.filterMap component?).foldl Component.step (p.start cwd) := by
  have hstart : p.split.1.components.foldl Component.step cwd = p.start cwd := by
    rw [start, isAbsolute]
    cases p.split.1 <;> rfl
  rw [locate, components, List.foldl_append, hstart]

theorem locate_eq (cwd : Location) (p : Path) : p.locate cwd = p.segments.foldl enter (p.start cwd) := by
  rw [locate_eq_foldl, List.foldl_filterMap, foldl_enter_segments]
  congr 1
  funext l segment
  rw [enter]
  cases component? segment <;> rfl

theorem locate_of_isAbsolute (h : p.isAbsolute = true) (cwd cwd' : Location) : p.locate cwd = p.locate cwd' := by
  rw [locate_eq, locate_eq, start, start, if_pos h, if_pos h]

theorem locate_empty (cwd : Location) : locate cwd ⟨""⟩ = cwd := by
  rfl

theorem place_eq_ok_iff : p.place cwd = .ok l ↔ p.text ≠ "" ∧ p.locate cwd = l := by
  rw [place]
  split
  next h => simp [h]
  next h => simp [h]

theorem absolute_eq_ok_iff : p.absolute cwd = .ok q ↔ p.text ≠ "" ∧ (p.locate cwd).path = q := by
  rw [absolute, Results.map_eq_ok]
  simp only [place_eq_ok_iff]
  constructor
  · rintro ⟨l, ⟨hne, rfl⟩, hq⟩
    exact ⟨hne, hq⟩
  · rintro ⟨hne, hq⟩
    exact ⟨_, ⟨hne, rfl⟩, hq⟩

theorem join_of_isAbsolute (h : child.isAbsolute = true) (base : Path) : base.join child = child := by
  rw [join, if_pos h]

theorem exists_tail_join (base : Path) (hc : child.isAbsolute = false) :
    ∃ tail, (base.join child).text = base.text ++ tail := by
  rw [join, if_neg (by simp [hc])]
  split
  · exact ⟨child.text, rfl⟩
  · exact ⟨"/" ++ child.text, by rw [String.append_assoc]⟩

theorem text_join_eq_empty_iff : (base.join child).text = "" ↔ base.text = "" ∧ child.text = "" := by
  cases hc : child.isAbsolute with
  | true => simp [join_of_isAbsolute hc, text_ne_empty_of_isAbsolute hc]
  | false =>
    rw [join, if_neg (by simp [hc])]
    split
    next => simp
    next h => simp_all

theorem isAbsolute_join (hb : base.text ≠ "") (hc : child.isAbsolute = false) :
    (base.join child).isAbsolute = base.isAbsolute := by
  obtain ⟨tail, htail⟩ := exists_tail_join base hc
  have hne : base.text.toList ≠ [] := by simpa using hb
  rw [Bool.eq_iff_iff, isAbsolute_iff, isAbsolute_iff, htail, String.toList_append, List.head?_append,
    List.head?_eq_some_head hne, Option.some_or]

theorem segments_ne_nil (p : Path) : p.segments ≠ [] := by
  simp [segments, Text.Pieces.toList]

theorem exists_segments_join (hb : base.text ≠ "") (hc : child.isAbsolute = false) : ∃ front, front ≠ [] ∧
    (base.segments = front ∨ base.segments = front ++ [""]) ∧ (base.join child).segments = front ++ child.segments := by
  rw [join, if_neg (by simp [hc])]
  split
  next hslash =>
    have hlast : base.text.toList.getLast? = some '/' := by simpa [hb] using hslash
    obtain ⟨before, hbefore⟩ := List.getLast?_eq_some_iff.1 hlast
    have htext : base.text = String.ofList before ++ "/" ++ "" := by
      rw [← String.toList_inj]
      simpa using hbefore
    refine ⟨segments ⟨String.ofList before⟩, segments_ne_nil _, .inr ?_, ?_⟩
    · rw [show base = ⟨String.ofList before ++ "/" ++ ""⟩ from congrArg Path.mk htext, segments_append_slash,
        segments_empty]
    · rw [htext, String.append_empty, segments_append_slash]
  next => exact ⟨base.segments, base.segments_ne_nil, .inl rfl, segments_append_slash _ _⟩

theorem locate_join_of_relative (hb : base.text ≠ "") (hc : child.isAbsolute = false) (cwd : Location) :
    (base.join child).locate cwd = child.locate (base.locate cwd) := by
  obtain ⟨front, -, hfront, hjoin⟩ := exists_segments_join hb hc
  have hfold (l : Location) : front.foldl enter l = base.segments.foldl enter l := by
    rcases hfront with h | h
    · rw [h]
    · rw [h, List.foldl_append, List.foldl_cons, enter_of_none (by decide), List.foldl_nil]
  have hstart : (base.join child).start cwd = base.start cwd := by
    rw [start, start, isAbsolute_join hb hc]
  have hrelative (l : Location) : child.start l = l := by
    rw [start, if_neg (by simp [hc])]
  rw [locate_eq, locate_eq, locate_eq, hjoin, List.foldl_append, hfold, hstart, hrelative]

theorem locate_join (base child : Path) (cwd : Location) :
    (base.join child).locate cwd = child.locate (base.locate cwd) := by
  cases hc : child.isAbsolute with
  | true => rw [join_of_isAbsolute hc, locate_of_isAbsolute hc cwd (base.locate cwd)]
  | false =>
    by_cases hb : base.text = ""
    · obtain rfl : base = ⟨""⟩ := congrArg Path.mk hb
      simp [join, hc, locate_empty]
    · exact locate_join_of_relative hb hc cwd

theorem place_join (hb : base.text ≠ "") (child : Path) (cwd : Location) :
    (base.join child).place cwd = .ok (child.locate (base.locate cwd)) := by
  refine place_eq_ok_iff.2 ⟨?_, locate_join base child cwd⟩
  rw [ne_eq, text_join_eq_empty_iff]
  exact fun h => hb h.1

theorem fileName_eq_some_iff : p.fileName = some n ↔ p.components.getLast? = some (.name n) := by
  rw [fileName]
  split
  next m hm => simp [hm]
  next h =>
    simp only [reduceCtorEq, false_iff]
    exact h n

theorem exists_trivial_tail (all : List String) :
    ∃ tail, all = dropTrivial all ++ tail ∧ ∀ segment ∈ tail, component? segment = none := by
  refine ⟨(all.reverse.takeWhile (component? · |>.isNone)).reverse, ?_, ?_⟩
  · rw [dropTrivial, ← List.reverse_append, List.takeWhile_append_dropWhile, List.reverse_reverse]
  · intro segment h
    have hnone := List.all_takeWhile (p := (component? · |>.isNone)) (l := all.reverse)
    simpa using List.all_eq_true.1 hnone segment (List.mem_reverse.1 h)

theorem component?_of_dropTrivial_eq_concat {segment : String} (h : dropTrivial body = front ++ [segment]) :
    component? segment ≠ none := by
  have hhead := List.head?_dropWhile_not (component? · |>.isNone) body.reverse
  have hreverse : body.reverse.dropWhile (component? · |>.isNone) = segment :: front.reverse := by
    rw [← List.reverse_inj, List.reverse_cons, List.reverse_reverse]
    exact h
  rw [hreverse] at hhead
  simpa [Option.isSome_iff_ne_none] using hhead

theorem foldl_enter_of_trivial {tail : List String} (h : ∀ segment ∈ tail, component? segment = none) (l : Location) :
    tail.foldl enter l = l := by
  induction tail with
  | nil => rfl
  | cons segment tail ih =>
    rw [List.foldl_cons, enter_of_none (h segment List.mem_cons_self)]
    exact ih fun other hother => h other (List.mem_cons_of_mem _ hother)

theorem foldl_enter_dropTrivial (all : List String) (l : Location) :
    (dropTrivial all).foldl enter l = all.foldl enter l := by
  obtain ⟨tail, htail, htrivial⟩ := exists_trivial_tail all
  conv => rhs; rw [htail, List.foldl_append, foldl_enter_of_trivial htrivial]

theorem exists_last_segment (h : p.fileName = some n) :
    ∃ front segment, dropTrivial p.split.2 = front ++ [segment] ∧ component? segment = some (.name n) := by
  obtain ⟨tail, htail, htrivial⟩ := exists_trivial_tail p.split.2
  have hlast := fileName_eq_some_iff.1 h
  have hnone : tail.filterMap component? = [] := List.filterMap_eq_nil_iff.2 htrivial
  rw [components, htail, List.filterMap_append, hnone, List.append_nil] at hlast
  rcases List.eq_nil_or_concat (dropTrivial p.split.2) with hd | ⟨front, segment, hd⟩
  · rw [hd] at hlast
    cases hlead : p.split.1 <;> simp [hlead, Lead.components] at hlast
  · rw [List.concat_eq_append] at hd
    refine ⟨front, segment, hd, ?_⟩
    cases hc : component? segment with
    | none => exact absurd hc (component?_of_dropTrivial_eq_concat hd)
    | some c => simpa [hd, hc, ← List.append_assoc] using hlast

theorem segments_rebuild (lead : Lead) (hfree : ∀ segment ∈ front, ∀ c ∈ segment.toList, isSlash c = false) :
    (lead.rebuild front).segments = lead.opening ++ if front = [] ∧ lead ≠ .current then [""] else front := by
  have hslash (c : Char) (hc : c ∈ ".".toList) : isSlash c = false := by
    obtain rfl : c = '.' := by simpa using hc
    rfl
  cases lead with
  | absolute =>
    cases front with
    | nil => rfl
    | cons segment front => exact segments_intercalate (by simp) (List.forall_mem_cons.2 ⟨by simp, hfree⟩)
  | current =>
    rw [if_neg (by simp)]
    exact segments_intercalate (by simp) (List.forall_mem_cons.2 ⟨hslash, hfree⟩)
  | plain =>
    cases front with
    | nil => rfl
    | cons segment front => exact segments_intercalate (by simp) hfree

theorem isAbsolute_rebuild (hfront : front <+: p.split.2)
    (hfree : ∀ segment ∈ front, ∀ c ∈ segment.toList, isSlash c = false) :
    (p.split.1.rebuild front).isAbsolute = p.isAbsolute := by
  rw [Bool.eq_iff_iff, isAbsolute_iff_segments, segments_rebuild _ hfree, isAbsolute_iff_lead]
  cases hlead : p.split.1 with
  | absolute => cases front <;> simp [Lead.opening]
  | current => simp [Lead.opening]
  | plain =>
    have hrelative : p.isAbsolute ≠ true := by simp [isAbsolute_iff_lead, hlead]
    have hsegments := p.segments_eq_append
    rw [hlead, Lead.opening, List.nil_append] at hsegments
    simp only [reduceCtorEq, iff_false]
    rintro ⟨segment, rest, h⟩
    split at h
    · simp [Lead.opening] at h
    · -- two segments of which the first is empty would make the path itself absolute
      obtain ⟨tail, htail⟩ := hfront
      obtain rfl : front = "" :: segment :: rest := h
      exact hrelative (isAbsolute_iff_segments.2 ⟨segment, rest ++ tail, hsegments.trans htail.symm⟩)

theorem isSlash_of_mem_front (hfront : front <+: p.split.2) :
    ∀ segment ∈ front, ∀ c ∈ segment.toList, isSlash c = false := by
  intro segment h
  apply isSlash_of_mem_segments (p := p)
  rw [segments_eq_append]
  exact List.mem_append_right _ (hfront.subset h)

theorem locate_rebuild (hfront : front <+: p.split.2) (cwd : Location) :
    (p.split.1.rebuild front).locate cwd = front.foldl enter (p.start cwd) := by
  have hfree := isSlash_of_mem_front hfront
  rw [locate_eq, start, isAbsolute_rebuild hfront hfree, ← start, segments_rebuild _ hfree, List.foldl_append,
    foldl_enter_opening]
  split
  next h => rw [h.1, List.foldl_cons, enter_of_none (by decide)]
  next => rfl

theorem locate_parent (h : p.fileName = some n) (cwd : Location) :
    ∃ q, p.parent = some q ∧ p.locate cwd = q.locate cwd ++ [n] := by
  obtain ⟨front, segment, hd, hc⟩ := exists_last_segment h
  have hbody : dropTrivial front <+: p.split.2 := by
    obtain ⟨tail, htail, -⟩ := exists_trivial_tail p.split.2
    obtain ⟨tail', htail', -⟩ := exists_trivial_tail front
    refine ⟨tail' ++ [segment] ++ tail, ?_⟩
    conv => rhs; rw [htail, hd, htail']
    simp
  refine ⟨p.split.1.rebuild (dropTrivial front), ?_, ?_⟩
  · rw [parent]
    simp only [hd]
    split
    · simp_all
    · simp_all
    · simp
  · rw [locate_rebuild hbody, foldl_enter_dropTrivial, locate_eq, foldl_enter_segments, ← foldl_enter_dropTrivial, hd,
      List.foldl_append, List.foldl_cons, List.foldl_nil, enter, hc]
    rfl

theorem text_directory_ne_empty (p : Path) : p.directory.text ≠ "" := by
  rw [directory]
  split
  · split
    · decide
    · assumption
  · decide

theorem locate_directory (h : p.fileName = some n) (cwd : Location) :
    p.locate cwd = p.directory.locate cwd ++ [n] := by
  obtain ⟨q, hq, hlocate⟩ := locate_parent h cwd
  rw [directory, hq, hlocate]
  dsimp only
  split
  next hempty =>
    obtain rfl : q = ⟨""⟩ := congrArg Path.mk hempty
    rfl
  next => rfl

theorem filterMap_opening (lead : Lead) : lead.opening.filterMap component? = [] := by
  cases lead <;> decide

theorem components_eq_segments (p : Path) : p.components = p.split.1.components ++ p.segments.filterMap component? := by
  rw [components, segments_eq_append, List.filterMap_append, filterMap_opening, List.nil_append]

theorem Lead.eq_of_iff {lead' : Lead} (habsolute : lead = .absolute ↔ lead' = .absolute)
    (hcurrent : lead = .current ↔ lead' = .current) : lead = lead' := by
  cases lead <;> cases lead' <;> simp_all

theorem fst_split_eq_current_iff : p.split.1 = .current ↔ p.segments.head? = some "." := by
  rw [split]
  split
  next h => simp [h]
  next h => simp [h]
  next h =>
    simp only [reduceCtorEq, false_iff, List.head?_eq_some_iff]
    rintro ⟨rest, hrest⟩
    exact h rest hrest

theorem fst_split_join (hb : base.text ≠ "") (hc : child.isAbsolute = false) :
    (base.join child).split.1 = base.split.1 := by
  have habsolute := isAbsolute_join hb hc
  rw [Bool.eq_iff_iff, isAbsolute_iff_lead, isAbsolute_iff_lead] at habsolute
  have hcurrent : (base.join child).split.1 = .current ↔ base.split.1 = .current := by
    obtain ⟨front, hne, hfront, hjoin⟩ := exists_segments_join hb hc
    have hhead (rest : List String) : (front ++ rest).head? = front.head? := by
      rw [List.head?_append, List.head?_eq_some_head hne, Option.some_or]
    rw [fst_split_eq_current_iff, fst_split_eq_current_iff, hjoin, hhead]
    rcases hfront with h | h
    · rw [h]
    · rw [h, hhead]
  exact Lead.eq_of_iff habsolute hcurrent

theorem components_join (hb : base.text ≠ "") (hc : child.isAbsolute = false) :
    (base.join child).components = base.components ++ child.segments.filterMap component? := by
  obtain ⟨front, -, hfront, hjoin⟩ := exists_segments_join hb hc
  have hsame : front.filterMap component? = base.segments.filterMap component? := by
    rcases hfront with h | h
    · rw [h]
    · rw [h, List.filterMap_append]
      simp [component?, Name.ofString?, isName]
  rw [components_eq_segments, components_eq_segments, fst_split_join hb hc, hjoin, List.filterMap_append, hsame,
    List.append_assoc]

theorem fst_split_rebuild (hfront : front <+: p.split.2) : (p.split.1.rebuild front).split.1 = p.split.1 := by
  have hsegments := segments_rebuild p.split.1 (isSlash_of_mem_front hfront)
  have habsolute := isAbsolute_rebuild hfront (isSlash_of_mem_front hfront)
  rw [Bool.eq_iff_iff, isAbsolute_iff_lead, isAbsolute_iff_lead] at habsolute
  have hcurrent : (p.split.1.rebuild front).split.1 = .current ↔ p.split.1 = .current := by
    rw [fst_split_eq_current_iff, hsegments]
    cases hlead : p.split.1 with
    | absolute => simp [Lead.opening]
    | current => simp [Lead.opening]
    | plain =>
      have hp := p.segments_eq_append
      rw [hlead, Lead.opening, List.nil_append] at hp
      have hnot : p.segments.head? ≠ some "." := by
        rw [ne_eq, ← fst_split_eq_current_iff, hlead]
        simp
      rw [hp] at hnot
      obtain ⟨tail, htail⟩ := hfront
      rw [← htail] at hnot
      cases front with
      | nil => simp [Lead.opening]
      | cons segment front => simpa [Lead.opening] using hnot
  exact Lead.eq_of_iff habsolute hcurrent

theorem components_rebuild (hfront : front <+: p.split.2) :
    (p.split.1.rebuild front).components = p.split.1.components ++ front.filterMap component? := by
  rw [components_eq_segments, fst_split_rebuild hfront, segments_rebuild _ (isSlash_of_mem_front hfront),
    List.filterMap_append, filterMap_opening, List.nil_append]
  split
  next h =>
    rw [h.1]
    rfl
  next => rfl

theorem components_parent (h : p.parent = some q) : q.components <+: p.components := by
  obtain ⟨tail, htail, -⟩ := exists_trivial_tail p.split.2
  have hfront : dropTrivial (dropTrivial p.split.2).dropLast <+: p.split.2 := by
    obtain ⟨tail', htail', -⟩ := exists_trivial_tail (dropTrivial p.split.2).dropLast
    have habove := (List.dropLast_prefix (dropTrivial p.split.2)).trans ⟨tail, htail.symm⟩
    exact List.IsPrefix.trans ⟨tail', htail'.symm⟩ habove
  rw [parent] at h
  split at h
  next lead body hsplit =>
    rw [hsplit] at hfront
    split at h
    next =>
      cases h
      exact List.nil_prefix
    next => cases h
    next =>
      obtain rfl := Option.some.inj h
      have hrebuild : (p.split.1.rebuild (dropTrivial (dropTrivial body).dropLast)).components = _ :=
        components_rebuild (by rwa [hsplit])
      rw [hsplit] at hrebuild
      rw [hrebuild, components, hsplit, List.prefix_append_right_inj]
      exact hfront.filterMap _

structure IsNormal (p : Path) : Prop where
  absolute : p.isAbsolute = true
  named : p.text = "/" ∨ ∀ segment ∈ p.segments.tail, segment ≠ "" ∧ segment ≠ "." ∧ segment ≠ ".."

theorem isNormal_path (l : Location) : l.path.IsNormal := by
  refine ⟨l.isAbsolute_path, ?_⟩
  by_cases hl : l = []
  · exact .inl (by rw [hl]; rfl)
  · right
    rw [Location.segments_path, Location.bodySegments, if_neg hl, List.tail_cons, List.forall_mem_map]
    intro n _
    exact ⟨n.text_ne_empty, n.text_ne_dot, n.text_ne_dots⟩

theorem components_join_name (hp : p.text ≠ "") (n : Name) :
    (p.join ⟨n.text⟩).components = p.components ++ [.name n] := by
  rw [components_join hp n.isAbsolute_text, n.segments_text]
  simp

theorem text_join_name_ne_empty (p : Path) (n : Name) : (p.join ⟨n.text⟩).text ≠ "" := by
  rw [ne_eq, text_join_eq_empty_iff]
  exact fun h => n.text_ne_empty h.2

end Path

def Pipeline.pathBelow (p : Path) (rel : List Name) : Path :=
  rel.foldl (fun q n => q.join ⟨n.text⟩) p

namespace Pipeline

variable {p : Path} {rel rel' : List Name} {n : Name}

theorem pathBelow_nil (p : Path) : pathBelow p [] = p := by
  rw [pathBelow, List.foldl_nil]

theorem pathBelow_cons (p : Path) (n : Name) (rel : List Name) :
    pathBelow p (n :: rel) = pathBelow (p.join ⟨n.text⟩) rel := by
  rw [pathBelow, List.foldl_cons, pathBelow]

theorem pathBelow_path (l : Location) (rel : List Name) : pathBelow l.path rel = Location.path (l ++ rel) := by
  induction rel generalizing l with
  | nil => rw [List.append_nil, pathBelow_nil]
  | cons n rel ih => rw [List.append_cons, ← ih, pathBelow_cons, Location.join_path]

theorem components_pathBelow (hp : p.text ≠ "") (rel : List Name) :
    (pathBelow p rel).components = p.components ++ rel.map .name := by
  induction rel generalizing p with
  | nil => rw [List.map_nil, List.append_nil, pathBelow_nil]
  | cons n rel ih =>
    rw [pathBelow_cons, ih (p.text_join_name_ne_empty n), Path.components_join_name hp, List.append_assoc,
      List.singleton_append, List.map_cons]

theorem eq_of_components_pathBelow (hp : p.text ≠ "")
    (h : (pathBelow p rel).components = (pathBelow p rel').components) : rel = rel' := by
  rw [components_pathBelow hp, components_pathBelow hp] at h
  exact (List.map_inj_right fun _ _ => Path.Component.name.inj).1 (List.append_cancel_left h)

theorem pathBelow_injective (hp : p.text ≠ "") (h : pathBelow p rel = pathBelow p rel') : rel = rel' :=
  eq_of_components_pathBelow hp (congrArg Path.components h)

theorem pathBelow_ne_self (hp : p.text ≠ "") (hrel : rel ≠ []) : pathBelow p rel ≠ p := by
  intro h
  exact hrel (pathBelow_injective hp (h.trans (pathBelow_nil p).symm))

theorem fileName_pathBelow (hp : p.text ≠ "") (hrel : rel ≠ []) : (pathBelow p rel).fileName = rel.getLast? := by
  obtain ⟨front, n, rfl⟩ := (List.eq_nil_or_concat rel).resolve_left hrel
  rw [List.concat_eq_append, List.getLast?_concat, Path.fileName_eq_some_iff, components_pathBelow hp,
    List.map_append, ← List.append_assoc, List.map_singleton, List.getLast?_concat]

end Pipeline

end DeclBundle
