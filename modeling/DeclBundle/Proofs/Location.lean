import DeclBundle.FileSystem.Resolve
import DeclBundle.Proofs.Text.Pieces

namespace DeclBundle

namespace Name

theorem text_ne_empty (n : Name) : n.text ≠ "" := by
  have h := n.isName_text
  simp only [isName, Bool.and_eq_true, decide_eq_true_eq] at h
  exact h.1.1.1

theorem text_ne_dot (n : Name) : n.text ≠ "." := by
  have h := n.isName_text
  simp only [isName, Bool.and_eq_true, decide_eq_true_eq] at h
  exact h.1.1.2

theorem text_ne_dots (n : Name) : n.text ≠ ".." := by
  have h := n.isName_text
  simp only [isName, Bool.and_eq_true, decide_eq_true_eq] at h
  exact h.1.2

theorem isSlash_of_mem_text (n : Name) : ∀ c ∈ n.text.toList, Path.isSlash c = false := by
  have h := n.isName_text
  simp only [isName, Bool.and_eq_true, Bool.not_eq_true', List.contains_eq_mem,
    decide_eq_false_iff_not] at h
  intro c hc
  simp only [Path.isSlash, decide_eq_false_iff_not]
  rintro rfl
  exact h.2 hc

@[simp] theorem ofString?_text (n : Name) : Name.ofString? n.text = some n :=
  dif_pos n.isName_text

@[simp] theorem step_text (n : Name) : Path.step n.text = .down n := by
  simp [Path.step, n.text_ne_dots]

@[simp] theorem component?_text (n : Name) : Path.component? n.text = some (.name n) := by
  simp [Path.component?, n.text_ne_dots]

theorem getLast?_text_ne_slash (n : Name) : n.text.toList.getLast? ≠ some '/' := by
  intro h
  have hslash := n.isSlash_of_mem_text '/' (List.mem_of_getLast? h)
  simp [Path.isSlash] at hslash

theorem segments_text (n : Name) : Path.segments ⟨n.text⟩ = [n.text] := by
  rw [Path.segments, Text.Pieces.toList_cut_of_forall n.isSlash_of_mem_text]
  simp

theorem isAbsolute_text (n : Name) : Path.isAbsolute ⟨n.text⟩ = false := by
  have hs : Path.split ⟨n.text⟩ = (.plain, [n.text]) := by
    rw [Path.split, segments_text]
    split
    · simp_all
    · next h => exact absurd (List.cons.inj h).1 n.text_ne_dot
    · rfl
  simp [Path.isAbsolute, hs]

end Name

namespace Location

def bodySegments (l : Location) : List String :=
  if l = [] then [""] else l.map Name.text

theorem bodySegments_ne_nil (l : Location) : bodySegments l ≠ [] := by
  unfold bodySegments
  split <;> simp_all

theorem text_path (l : Location) : l.path.text = "/".intercalate ("" :: bodySegments l) := by
  rw [String.intercalate_cons_of_ne_nil (bodySegments_ne_nil l), path]
  by_cases hl : l = []
  · simp [hl, bodySegments]
  · simp [hl, bodySegments]

theorem toList_text_path_concat (l : Location) (n : Name) :
    ∃ before, (path (l ++ [n])).text.toList = before ++ n.text.toList := by
  by_cases hl : l = []
  · exact ⟨['/'], by simp [hl, path]⟩
  · have htext : (path (l ++ [n])).text = "/" ++ "/".intercalate (l.map Name.text) ++ "/" ++ n.text := by
      rw [path, List.map_append, List.map_singleton,
        String.intercalate_append_of_ne_nil (by simpa using hl) (by simp), String.intercalate_singleton]
      simp only [String.append_assoc]
    exact ⟨("/" ++ "/".intercalate (l.map Name.text) ++ "/").toList, by rw [htext, String.toList_append]⟩

theorem getLast?_text_path_concat (l : Location) (n : Name) :
    (path (l ++ [n])).text.toList.getLast? ≠ some '/' := by
  obtain ⟨before, h⟩ := toList_text_path_concat l n
  have hne : n.text.toList ≠ [] := by
    rw [ne_eq, String.toList_eq_nil_iff]
    exact n.text_ne_empty
  have hlast : n.text.toList.getLast? = some (n.text.toList.getLast hne) := List.getLast?_eq_some_getLast hne
  rw [h, List.getLast?_append, hlast, Option.some_or, ← hlast]
  exact n.getLast?_text_ne_slash

theorem segments_path (l : Location) : l.path.segments = "" :: bodySegments l := by
  have hfree : ∀ t ∈ bodySegments l, ∀ c ∈ t.toList, Path.isSlash c = false := by
    intro t ht
    unfold bodySegments at ht
    split at ht
    · simp_all
    · obtain ⟨n, _, rfl⟩ := List.mem_map.1 ht
      exact n.isSlash_of_mem_text
  have ht : l.path.text.toList = ['/'].intercalate (("" :: bodySegments l).map String.toList) := by
    rw [text_path, String.toList_intercalate]
    rfl
  rw [Path.segments, ht, Text.Pieces.toList_cut_intercalate (by rfl) (by simp)]
  · simp [Function.comp_def]
  · intro piece hp
    obtain ⟨t, ht, rfl⟩ := List.mem_map.1 hp
    rcases List.mem_cons.1 ht with rfl | ht
    · simp
    · exact hfree t ht

theorem split_path (l : Location) : l.path.split = (.absolute, bodySegments l) := by
  rw [Path.split, segments_path]
  cases h : bodySegments l with
  | nil => exact absurd h (bodySegments_ne_nil l)
  | cons s rest => rfl

@[simp] theorem isAbsolute_path (l : Location) : l.path.isAbsolute = true := by
  simp [Path.isAbsolute, split_path]

@[simp] theorem start_path (l cwd : Location) : l.path.start cwd = [] := by
  simp [Path.start]

theorem filterMap_component? (l : Location) :
    (bodySegments l).filterMap Path.component? = l.map .name := by
  have hmap : l.filterMap (Path.component? ∘ Name.text) = l.map .name := by
    induction l with
    | nil => rfl
    | cons n l ih =>
      rw [List.filterMap_cons, Function.comp_apply, Name.component?_text, ih, List.map_cons]
  unfold bodySegments
  split
  · next h =>
    subst h
    rfl
  · rw [List.filterMap_map, hmap]

theorem components_path (l : Location) : l.path.components = .root :: l.map .name := by
  simp [Path.components, split_path, Path.Lead.components, filterMap_component?]

theorem steps_path (l : Location) : l.path.steps = if l = [] then [.here] else l.map .down := by
  rw [Path.steps, split_path, bodySegments]
  split
  · rfl
  · simp [Function.comp_def]

theorem foldl_step_names (k l : Location) : (l.map .name).foldl Path.Component.step k = k ++ l := by
  induction l generalizing k with
  | nil => simp
  | cons n l ih => simp [Path.Component.step, ih]

@[simp] theorem locate_path (l cwd : Location) : l.path.locate cwd = l := by
  rw [Path.locate, components_path, List.foldl_cons]
  exact foldl_step_names [] l

theorem text_path_ne_empty (l : Location) : l.path.text ≠ "" := by
  simp [path]

@[simp] theorem absolute_path (l cwd : Location) : l.path.absolute cwd = .ok l.path := by
  simp [Path.absolute, Path.place, text_path_ne_empty, Except.map]

theorem path_injective {k l : Location} (h : k.path = l.path) : k = l := by
  rw [← locate_path k [], h, locate_path]

@[simp] theorem same_path_iff {k l : Location} : k.path.same l.path = true ↔ k = l := by
  rw [Path.same, decide_eq_true_eq, components_path, components_path, List.cons.injEq]
  rw [List.map_inj_right fun _ _ => Path.Component.name.inj]
  exact and_iff_right rfl

@[simp] theorem isWithin_path_iff {k l : Location} : l.path.isWithin k.path = true ↔ k <+: l := by
  rw [Path.isWithin, List.isPrefixOf_iff_prefix, components_path, components_path,
    List.cons_prefix_cons, List.prefix_map_iff_of_injective fun _ _ => Path.Component.name.inj]
  exact and_iff_right rfl

theorem fileName_path (l : Location) (n : Name) : Path.fileName (path (l ++ [n])) = some n := by
  rw [Path.fileName, components_path, List.map_append, ← List.cons_append, List.map_singleton,
    List.getLast?_concat]

theorem join_path (l : Location) (n : Name) : l.path.join ⟨n.text⟩ = path (l ++ [n]) := by
  rw [Path.join, if_neg (by simp [n.isAbsolute_text])]
  by_cases hl : l = []
  · subst hl
    rfl
  · obtain ⟨k, m, rfl⟩ := (List.eq_nil_or_concat l).resolve_left hl
    rw [List.concat_eq_append, if_neg (by simp [getLast?_text_path_concat, text_path_ne_empty])]
    simp only [path, List.map_append, List.map_singleton, Path.mk.injEq]
    rw [String.intercalate_append_of_ne_nil (m := [n.text]) (by simp) (by simp)]
    simp only [String.intercalate_singleton, String.append_assoc]

theorem dropTrivial_map_text (l : Location) : Path.dropTrivial (l.map Name.text) = l.map Name.text := by
  rw [Path.dropTrivial]
  cases hl : l.reverse with
  | nil => simp_all
  | cons n rest =>
    rw [← List.map_reverse, hl, List.map_cons, List.dropWhile_cons_of_neg (by simp), ← List.map_cons,
      ← hl, List.map_reverse, List.reverse_reverse]

theorem parent_path (l : Location) (n : Name) : Path.parent (path (l ++ [n])) = some l.path := by
  have hb : bodySegments (l ++ [n]) = (l ++ [n]).map Name.text := by simp [bodySegments]
  have hne : (l ++ [n]).map Name.text ≠ [] := by simp
  have hrebuild : Path.Lead.absolute.rebuild (l.map Name.text) = l.path := by
    cases l with
    | nil => rfl
    | cons m l =>
      rw [List.map_cons, Path.Lead.rebuild, path, String.intercalate_cons_of_ne_nil (by simp)]
      · simp
      · simp
  have hlast : Path.dropTrivial ((l ++ [n]).map Name.text).dropLast = l.map Name.text := by
    rw [← List.map_dropLast, List.dropLast_concat, dropTrivial_map_text]
  rw [Path.parent, split_path, hb]
  simp only [dropTrivial_map_text]
  cases hm : (l ++ [n]).map Name.text with
  | nil => exact absurd hm hne
  | cons t rest =>
    rw [hm] at hlast
    simp only [hlast, hrebuild]

theorem parent_root : Path.parent (path []) = none := by
  decide +kernel

theorem directory_path (l : Location) (n : Name) : Path.directory (path (l ++ [n])) = l.path := by
  rw [Path.directory, parent_path]
  simp [text_path_ne_empty]

open FileSystem in
theorem ending_path (l : Location) (n : Name) :
    ending (path (l ++ [n])) = (l.map .down ++ [.here], .name n false) := by
  have hb : bodySegments (l ++ [n]) = (l ++ [n]).map Name.text := by simp [bodySegments]
  have htrim : (((l ++ [n]).map Name.text).reverse.dropWhile (· = "")).reverse =
      l.map Name.text ++ [n.text] := by
    rw [List.map_append, List.map_singleton, List.reverse_append, List.reverse_singleton,
      List.singleton_append, List.dropWhile_cons_of_neg (by simp [n.text_ne_empty])]
    simp
  rw [ending, split_path, hb]
  simp only [htrim]
  simp [Function.comp_def]

open FileSystem in
theorem ending_root : ending (path []) = ([], .root) := by
  rfl

end Location

end DeclBundle
