import DeclBundle.Proofs.Path

/-!
Absolute paths, built up component by component: a name is put behind what is there, and `..` cuts it
off again. What comes out is the path of a place, and so a normal form.
-/

namespace DeclBundle.Path

variable {p q base child : Path} {cwd l : Location} {c : Component} {below : List Component}

def Component.written : Component → String
  | root => "/"
  | current => "."
  | parent => ".."
  | name n => n.text

def push (p : Path) (c : Component) : Path :=
  p.join ⟨c.written⟩

def pop (p : Path) : Path :=
  p.parent.getD p

def follow (p : Path) : Component → Path
  | .current => p
  | .parent => p.pop
  | c => p.push c

def hasTwoSlashes (p : Path) : Bool :=
  List.isPrefixOf ['/', '/'] p.text.toList && !List.isPrefixOf ['/', '/', '/'] p.text.toList

def anchored (cwd : Location) (p : Path) : Path :=
  let front := if p.isAbsolute then if p.hasTwoSlashes then ⟨"//"⟩ else ⟨"/"⟩ else cwd.path
  let whole := (p.components.filter fun c => c ≠ .root && c ≠ .current).foldl push front
  if p.text.toList.getLast? = some '/' then whole.join ⟨""⟩ else whole

def resolved (p : Path) : Path :=
  p.components.foldl follow ⟨""⟩

def fromRoot (cwd : Location) (p : Path) : List Component :=
  if p.isAbsolute then p.components else cwd.path.components ++ p.components

theorem segments_written (hroot : c ≠ .root) (hcurrent : c ≠ .current) :
    isAbsolute ⟨c.written⟩ = false ∧ segments ⟨c.written⟩ = [c.written] ∧ component? c.written = some c := by
  cases c with
  | root => exact absurd rfl hroot
  | current => exact absurd rfl hcurrent
  | parent => exact ⟨by decide, by decide, rfl⟩
  | name n => exact ⟨n.isAbsolute_text, n.segments_text, n.component?_text⟩

theorem components_push (hp : p.isAbsolute = true) (hroot : c ≠ .root) (hcurrent : c ≠ .current) :
    (p.push c).isAbsolute = true ∧ (p.push c).components = p.components ++ [c] := by
  obtain ⟨hrelative, hsegments, hcomponent⟩ := segments_written hroot hcurrent
  constructor
  · rw [push, isAbsolute_join (text_ne_empty_of_isAbsolute hp) hrelative, hp]
  · rw [push, components_join (text_ne_empty_of_isAbsolute hp) hrelative, hsegments]
    simp [hcomponent]

theorem components_foldl_push (hp : p.isAbsolute = true) (hbelow : ∀ c ∈ below, c ≠ .root ∧ c ≠ .current) :
    (below.foldl push p).isAbsolute = true ∧ (below.foldl push p).components = p.components ++ below := by
  induction below generalizing p with
  | nil => simp [hp]
  | cons c below ih =>
    obtain ⟨hroot, hcurrent⟩ := hbelow c List.mem_cons_self
    obtain ⟨habsolute, hcomponents⟩ := components_push hp hroot hcurrent
    obtain ⟨hwhole, h⟩ := ih habsolute fun d hd => hbelow d (List.mem_cons_of_mem _ hd)
    exact ⟨hwhole, by rw [List.foldl_cons, h, hcomponents, List.append_assoc, List.singleton_append]⟩

theorem filter_components (p : Path) :
    (p.components.filter fun c => c ≠ .root && c ≠ .current) = p.split.2.filterMap component? := by
  have hbody : ∀ c ∈ p.split.2.filterMap component?, (decide (c ≠ .root) && decide (c ≠ .current)) = true := by
    intro c hc
    obtain ⟨segment, -, h⟩ := List.mem_filterMap.1 hc
    rw [component?] at h
    split at h
    · cases h
      rfl
    · obtain ⟨n, -, rfl⟩ := Option.map_eq_some_iff.1 h
      rfl
  rw [components, List.filter_append, List.filter_eq_self.2 hbody]
  cases p.split.1 <;> rfl

theorem components_anchored (cwd : Location) (p : Path) :
    (p.anchored cwd).components = .root :: ((p.start cwd).map .name ++ p.split.2.filterMap component?) := by
  have hfront (front : Path)
      (h : front = if p.isAbsolute then if p.hasTwoSlashes then ⟨"//"⟩ else ⟨"/"⟩ else cwd.path) :
      front.isAbsolute = true ∧ front.components = .root :: (p.start cwd).map .name := by
    rw [start]
    split at h
    next habsolute =>
      rw [if_pos habsolute]
      split at h <;> exact h ▸ ⟨by decide, by decide⟩
    next hrelative =>
      rw [if_neg hrelative]
      exact h ▸ ⟨cwd.isAbsolute_path, cwd.components_path⟩
  have hbelow : ∀ c ∈ p.split.2.filterMap component?, c ≠ .root ∧ c ≠ .current := by
    rw [← filter_components]
    intro c hc
    simpa using (List.mem_filter.1 hc).2
  obtain ⟨habsolute, hcomponents⟩ := hfront _ rfl
  obtain ⟨hwhole, h⟩ := components_foldl_push habsolute hbelow
  rw [hcomponents, List.cons_append] at h
  rw [anchored, filter_components]
  split
  · rw [components_join (text_ne_empty_of_isAbsolute hwhole) (by decide), h]
    simp [segments_empty, component?, Name.ofString?, isName]
  · exact h

theorem push_root (p : Path) : p.push .root = Location.path [] := by
  have habsolute : Path.isAbsolute ⟨"/"⟩ = true := by decide
  exact join_of_isAbsolute habsolute p

theorem follow_path (l : Location) (c : Component) : l.path.follow c = (c.step l).path := by
  cases c with
  | root => exact push_root l.path
  | current => rfl
  | parent =>
    rw [follow, pop]
    rcases List.eq_nil_or_concat l with rfl | ⟨k, n, rfl⟩
    · rw [Location.parent_root]
      rfl
    · rw [List.concat_eq_append, Location.parent_path]
      simp [Component.step]
  | name n => exact Location.join_path l n

theorem foldl_follow_path (l : Location) (below : List Component) :
    below.foldl follow l.path = (below.foldl Component.step l).path := by
  induction below generalizing l with
  | nil => rfl
  | cons c below ih => rw [List.foldl_cons, follow_path, ih, List.foldl_cons]

theorem resolved_anchored (cwd : Location) (p : Path) : (p.anchored cwd).resolved = (p.locate cwd).path := by
  have hroot : follow ⟨""⟩ .root = Location.path [] := push_root ⟨""⟩
  rw [resolved, components_anchored, List.foldl_cons, hroot, foldl_follow_path, List.foldl_append,
    Location.foldl_step_names, List.nil_append, locate_eq_foldl]

theorem foldl_fromRoot (cwd : Location) (p : Path) : (p.fromRoot cwd).foldl Component.step [] = p.locate cwd := by
  rw [fromRoot]
  split
  next h => exact locate_of_isAbsolute h [] cwd
  next h =>
    have hcwd := Location.locate_path cwd []
    rw [locate] at hcwd
    rw [List.foldl_append, hcwd, locate]

theorem text_path_or (l : Location) : l.path.text = "/" ∨ l.path.text.toList.getLast? ≠ some '/' := by
  rcases List.eq_nil_or_concat l with rfl | ⟨k, n, rfl⟩
  · exact .inl rfl
  · rw [List.concat_eq_append]
    exact .inr (Location.getLast?_text_path_concat k n)

/-- Every path but the empty one has an absolute form. It is what the path comes to when it is built up
from the root, a slash and the names that are left of its components with single slashes between them:
a normal form, and its own absolute form anywhere. A path has it from wherever it is joined to. -/
theorem absolute_normalizes (cwd : Location) (p : Path) :
    ((∃ err, p.absolute cwd = .error err) ↔ p.text = "") ∧
    (p.text ≠ "" → p.absolute cwd = .ok (p.anchored cwd).resolved ∧ (p.anchored cwd).resolved.text =
      "/" ++ "/".intercalate (((p.fromRoot cwd).foldl Component.step []).map Name.text)) ∧
    (∀ q, p.absolute cwd = .ok q → q.IsNormal ∧ (q.text = "/" ∨ q.text.toList.getLast? ≠ some '/') ∧
      ∀ other, q.absolute other = .ok q) ∧
    (p.isAbsolute = true → ∀ other, p.absolute other = p.absolute cwd) ∧
    ∀ base : Path, base.text ≠ "" → ∃ middle whole, base.absolute cwd = .ok middle ∧
      (base.join p).absolute cwd = .ok whole ∧ (middle.join p).absolute cwd = .ok whole := by
  refine ⟨?_, ?_, ?_, ?_, ?_⟩
  · rw [absolute, place]
    split <;> simp_all
  · intro hne
    rw [resolved_anchored, foldl_fromRoot]
    exact ⟨absolute_eq_ok_iff.2 ⟨hne, rfl⟩, rfl⟩
  · intro q hq
    obtain ⟨-, rfl⟩ := absolute_eq_ok_iff.1 hq
    exact ⟨isNormal_path _, text_path_or _, Location.absolute_path _⟩
  · intro h other
    rw [absolute, absolute, place, place, locate_of_isAbsolute h other cwd]
  · intro base hbase
    have hjoin (middle : Path) (hm : middle.text ≠ "") (hsame : middle.locate cwd = base.locate cwd) :
        (middle.join p).absolute cwd = .ok (p.locate (base.locate cwd)).path := by
      rw [absolute, place_join hm, hsame, Results.map_ok]
    exact ⟨_, _, absolute_eq_ok_iff.2 ⟨hbase, rfl⟩, hjoin base hbase rfl,
      hjoin _ (Location.text_path_ne_empty _) (Location.locate_path _ cwd)⟩

theorem absolute_normalizes_sample :
    let cwd : Location := [⟨"usr", by decide⟩, ⟨"bin", by decide⟩]
    let p : Path := ⟨"./a//../../b/.//"⟩
    let r : Path := ⟨"//../c/.."⟩
    p.text ≠ "" ∧ p.anchored cwd = ⟨"/usr/bin/a/../../b/"⟩ ∧ (p.anchored cwd).resolved = ⟨"/usr/b"⟩ ∧
      p.absolute cwd = .ok ⟨"/usr/b"⟩ ∧ Path.IsNormal ⟨"/usr/b"⟩ ∧
      r.isAbsolute = true ∧ r.absolute [] = r.absolute cwd ∧
      Path.text ⟨"../x/"⟩ ≠ "" ∧ ∃ middle whole, Path.absolute cwd ⟨"../x/"⟩ = .ok middle ∧
        (Path.join ⟨"../x/"⟩ p).absolute cwd = .ok whole ∧ (middle.join p).absolute cwd = .ok whole := by
  intro cwd p r
  have hne : p.text ≠ "" := by decide
  have habsolute : r.isAbsolute = true := by decide
  have hbase : Path.text ⟨"../x/"⟩ ≠ "" := by decide
  have hresolved : (p.anchored cwd).resolved = ⟨"/usr/b"⟩ := by decide +kernel
  obtain ⟨-, hform, hnormal, -, hjoin⟩ := absolute_normalizes cwd p
  have hok := (hform hne).1
  rw [hresolved] at hok
  exact ⟨hne, by decide +kernel, hresolved, hok, (hnormal _ hok).1, habsolute,
    (absolute_normalizes cwd r).2.2.2.1 habsolute [], hbase, hjoin _ hbase⟩

end DeclBundle.Path
