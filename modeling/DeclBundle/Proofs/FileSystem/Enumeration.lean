import DeclBundle.Proofs.FileSystem.Snapshots

/-!
Three walks of one tree. What the tree has below a place is enumerated once, by the names that lead
there from it. A snapshot, a list of declarations and a list of sources are each the increasing list of
the paths of what passes a test of their own.
-/

namespace DeclBundle

open Pipeline

theorem isSuffixOf_toList_iff {suffix text : String} :
    suffix.toList.isSuffixOf text.toList = true ↔ ∃ stem, text = stem ++ suffix := by
  rw [List.isSuffixOf_iff_suffix]
  constructor
  · rintro ⟨front, h⟩
    refine ⟨String.ofList front, ?_⟩
    rw [← String.toList_inj, String.toList_append, String.toList_ofList, h]
  · rintro ⟨stem, rfl⟩
    exact ⟨stem.toList, String.toList_append.symm⟩

theorem Name.extension_eq_some_iff {n : Name} {ext : String} :
    n.extension = some ext ↔ '.' ∉ ext.toList ∧ ∃ stem, stem ≠ "" ∧ n.text = stem ++ "." ++ ext := by
  have hreverse (stem : String) : n.text = stem ++ "." ++ ext ↔
      n.text.toList.reverse = ext.toList.reverse ++ '.' :: stem.toList.reverse := by
    rw [← String.toList_inj, ← List.reverse_inj]
    simp
  simp only [hreverse]
  rw [extension]
  have hdrop (ending rest : List Char) : (ending ++ rest).drop ending.length = rest := List.drop_left
  constructor
  · intro h
    have hcut := List.takeWhile_append_dropWhile (p := (· ≠ '.')) (l := n.text.toList.reverse)
    have hall := List.all_takeWhile (p := (· ≠ '.')) (l := n.text.toList.reverse)
    have hhead := List.head?_dropWhile_not (· ≠ '.') n.text.toList.reverse
    generalize n.text.toList.reverse.takeWhile (· ≠ '.') = ending at *
    generalize n.text.toList.reverse.dropWhile (· ≠ '.') = rest at *
    rw [← hcut, hdrop] at h
    cases rest with
    | nil => cases h
    | cons dot rest =>
      cases rest with
      | nil => cases h
      | cons c rest =>
        obtain rfl := Option.some.inj h
        obtain rfl : dot = '.' := by simpa using hhead
        refine ⟨?_, String.ofList (c :: rest).reverse, by simp, by simp [← hcut]⟩
        intro hdot
        rw [String.toList_ofList, List.mem_reverse] at hdot
        simpa using List.all_eq_true.1 hall '.' hdot
  · rintro ⟨hdot, stem, hstem, htext⟩
    have hending : n.text.toList.reverse.takeWhile (· ≠ '.') = ext.toList.reverse := by
      rw [htext, List.takeWhile_append_of_pos]
      · simp
      · intro c hc
        rw [List.mem_reverse] at hc
        simp only [ne_eq, decide_not, Bool.not_eq_eq_eq_not, Bool.not_true, decide_eq_false_iff_not]
        rintro rfl
        exact hdot hc
    rw [hending, htext, hdrop]
    obtain ⟨c, rest, hrest⟩ := List.exists_cons_of_ne_nil (l := stem.toList.reverse) (by simpa using hstem)
    rw [hrest]
    simp

theorem Declaration.isDeclaration_iff {q : Path} : Declaration.isDeclaration q = true ↔
    ∃ n stem, q.fileName = some n ∧ n.text = stem ++ ".d.ts" := by
  rw [Declaration.isDeclaration]
  cases q.fileName with
  | none => simp
  | some n =>
    dsimp only [Declaration.suffix]
    rw [isSuffixOf_toList_iff]
    simp

namespace FileSystem

variable {fs : FileSystem} {s s' : Schedule} {keep : Name → Bool} {l base : Location} {p q root : Path} {e : Entry}
  {rel : List Name} {test : List Name → Entry → Bool} {list : List Path} {found : List (Path × Entry)}
  {mode : Nat} {n : Name}

def entriesBelow (fs : FileSystem) (l : Location) : List (List Name × Entry) :=
  fs.table.filterMap fun (k, e) => if k.isBelow l then some (k.drop l.length, e) else none

theorem mem_entriesBelow_iff : (rel, e) ∈ fs.entriesBelow l ↔ rel ≠ [] ∧ fs.get? (l ++ rel) = some e := by
  rw [entriesBelow, List.mem_filterMap]
  constructor
  · rintro ⟨⟨k, e'⟩, hk, h⟩
    obtain ⟨hbelow, h⟩ := Option.ite_none_right_eq_some.1 h
    obtain ⟨rel', hrel, rfl⟩ := isBelow_iff_append.1 hbelow
    rw [List.drop_left] at h
    cases h
    exact ⟨hrel, (get?_eq_some_iff (by simp [hrel])).2 hk⟩
  · rintro ⟨hrel, hget⟩
    refine ⟨(l ++ rel, e), (get?_eq_some_iff (by simp [hrel])).1 hget, ?_⟩
    dsimp only
    rw [if_pos (isBelow_iff_append.2 ⟨rel, hrel, rfl⟩), List.drop_left]

theorem pairwise_entriesBelow (fs : FileSystem) (l : Location) :
    (fs.entriesBelow l).Pairwise fun a b => a.1 ≠ b.1 := by
  rw [entriesBelow, List.pairwise_filterMap]
  refine fs.pairwise_table.imp ?_
  rintro ⟨j, _⟩ ⟨k, _⟩ hne x hx y hy heq
  obtain ⟨hj, hx⟩ := Option.ite_none_right_eq_some.1 hx
  obtain ⟨hk, hy⟩ := Option.ite_none_right_eq_some.1 hy
  obtain ⟨rel, -, rfl⟩ := isBelow_iff_append.1 hj
  obtain ⟨rel', -, rfl⟩ := isBelow_iff_append.1 hk
  rw [List.drop_left] at hx hy
  cases hx
  cases hy
  exact hne (congrArg (l ++ ·) heq)

/-- The paths, below a path, of the entries below a place that pass a test: in increasing order, and each
once. -/
structure Enumerates (fs : FileSystem) (l : Location) (p : Path) (test : List Name → Entry → Bool)
    (list : List Path) : Prop where
  increasing : list.Pairwise fun p q => compare p q = .lt
  perm : list.Perm (((fs.entriesBelow l).filter fun (rel, e) => test rel e).map fun (rel, _) => pathBelow p rel)

theorem enumerates_of_mem (hp : p.text ≠ "") (hlist : list.Pairwise fun p q => compare p q = .lt)
    (hmem : ∀ q, q ∈ list ↔ ∃ rel e, (rel ≠ [] ∧ fs.get? (l ++ rel) = some e) ∧ test rel e = true ∧
      q = pathBelow p rel) : fs.Enumerates l p test list := by
  refine ⟨hlist, (List.perm_ext_iff_of_nodup (PathSet.nodup ⟨list, hlist⟩) ?_).2 ?_⟩
  · rw [List.Nodup, List.pairwise_map]
    exact ((fs.pairwise_entriesBelow l).filter _).imp fun hne heq => hne (pathBelow_injective hp heq)
  · intro q
    rw [hmem, List.mem_map]
    constructor
    · rintro ⟨rel, e, hrel, htest, rfl⟩
      exact ⟨(rel, e), List.mem_filter.2 ⟨mem_entriesBelow_iff.2 hrel, htest⟩, rfl⟩
    · rintro ⟨⟨rel, e⟩, hrel, rfl⟩
      obtain ⟨hrel, htest⟩ := List.mem_filter.1 hrel
      exact ⟨rel, e, mem_entriesBelow_iff.1 hrel, htest, rfl⟩

theorem walk_perm (hf : fs.find true p = .ok (l, e)) (h : fs.walk s keep p = .ok found) :
    found.Perm (((fs.entriesBelow l).filter fun (rel, _) => rel.all keep).map fun (rel, e) =>
      (pathBelow p rel, e)) := by
  have hfound : found.Nodup := List.Pairwise.imp (fun hne heq => hne (congrArg Prod.fst heq))
    (List.pairwise_map.1 (nodup_walk h))
  refine (List.perm_ext_iff_of_nodup hfound ?_).2 ?_
  · rw [List.Nodup, List.pairwise_map]
    exact ((fs.pairwise_entriesBelow l).filter _).imp fun hne heq =>
      hne (pathBelow_injective (text_ne_empty_of_find hf) (congrArg Prod.fst heq))
  · rintro ⟨q, e⟩
    rw [finds_walk h hf q e, List.mem_map]
    simp only [shown_height_iff]
    constructor
    · rintro ⟨rel, ⟨hrel, hkeep, hget⟩, rfl⟩
      exact ⟨(rel, e), List.mem_filter.2 ⟨mem_entriesBelow_iff.2 ⟨hrel, hget⟩, List.all_eq_true.2 hkeep⟩, rfl⟩
    · rintro ⟨⟨rel, e'⟩, hrel, heq⟩
      cases heq
      obtain ⟨hrel, hkeep⟩ := List.mem_filter.1 hrel
      obtain ⟨hrel, hget⟩ := mem_entriesBelow_iff.1 hrel
      exact ⟨rel, ⟨hrel, List.all_eq_true.1 hkeep, hget⟩, rfl⟩

def isDeclarationFile (rel : List Name) (e : Entry) : Bool :=
  e.isFile && rel.getLast?.any fun n => ".d.ts".toList.isSuffixOf n.text.toList

def isSourceFile (rel : List Name) (e : Entry) : Bool :=
  e.isFile && rel.all (·.text ≠ "node_modules") &&
    rel.getLast?.any fun n => ".ts".toList.isSuffixOf n.text.toList && n.text ≠ ".ts"

theorem isDeclaration_pathBelow (hp : p.text ≠ "") (hrel : rel ≠ []) :
    Declaration.isDeclaration (pathBelow p rel) =
      rel.getLast?.any fun n => ".d.ts".toList.isSuffixOf n.text.toList := by
  rw [Declaration.isDeclaration, fileName_pathBelow hp hrel]
  cases rel.getLast? <;> rfl

theorem extension_eq_ts_iff : n.extension = some "ts" ↔
    (".ts".toList.isSuffixOf n.text.toList && n.text ≠ ".ts") = true := by
  have hstem (stem : String) : stem ++ "." ++ "ts" = stem ++ ".ts" := String.append_assoc
  rw [Name.extension_eq_some_iff, Bool.and_eq_true, isSuffixOf_toList_iff]
  simp only [hstem, decide_eq_true_eq]
  constructor
  · rintro ⟨-, stem, hne, htext⟩
    refine ⟨⟨stem, htext⟩, ?_⟩
    rw [htext]
    intro h
    exact hne (String.append_eq_right_iff.1 h)
  · rintro ⟨⟨stem, htext⟩, hne⟩
    refine ⟨by decide, stem, ?_, htext⟩
    rintro rfl
    exact hne (by rw [htext, String.empty_append])

theorem isSource_pathBelow (hp : p.text ≠ "") (hrel : rel ≠ []) : isSource (pathBelow p rel) =
    rel.getLast?.any fun n => ".ts".toList.isSuffixOf n.text.toList && n.text ≠ ".ts" := by
  rw [isSource, Path.extension, fileName_pathBelow hp hrel]
  cases rel.getLast? with
  | none => rfl
  | some n => rw [Bool.eq_iff_iff, decide_eq_true_eq, Option.bind_some, extension_eq_ts_iff, Option.any_some]

theorem entryAt?_below (hf : fs.find true base.path = .ok (l, .directory mode)) (hrel : rel ≠ [])
    (hget : fs.get? (l ++ rel) = some e) : fs.entryAt? (Location.path (base ++ rel)) = some e := by
  have hlead : fs.LeadsTo base l := ⟨mode, (find_path_eq_ok_iff.1 hf).2⟩
  rw [entryAt?, place?_path, hlead.resolve_append_downs hrel hget (.inl rfl)]
  exact hget

theorem enumerates_snapshot {paths : PathSet} (hf : fs.find true base.path = .ok (l, e))
    (h : fs.snapshot s base.path = .ok paths) : fs.Enumerates l base.path (fun _ _ => true) paths.toList := by
  apply enumerates_of_mem base.text_path_ne_empty paths.increasing
  intro q
  simp only [mem_snapshot_of_find hf h, pathBelow_path]
  constructor
  · rintro ⟨e, rel, hrel, hget, hq⟩
    exact ⟨rel, e, ⟨hrel, hget⟩, trivial, hq⟩
  · rintro ⟨rel, e, ⟨hrel, hget⟩, -, hq⟩
    exact ⟨e, rel, hrel, hget, hq⟩

theorem enumerates_declarations (hf : fs.find true base.path = .ok (l, e))
    (h : fs.declarations s base.path = .ok list) : fs.Enumerates l base.path isDeclarationFile list := by
  have hp := base.text_path_ne_empty
  obtain ⟨_, _, -, hlist, -⟩ := mem_declarations h
  apply enumerates_of_mem hp hlist
  intro q
  rw [mem_declarations_of_find hf h]
  constructor
  · rintro ⟨htest, content, mode, rel, hrel, hget, rfl⟩
    rw [← pathBelow_path, isDeclaration_pathBelow hp hrel] at htest
    exact ⟨rel, _, ⟨hrel, hget⟩, htest, (pathBelow_path base rel).symm⟩
  · rintro ⟨rel, e, ⟨hrel, hget⟩, hpasses, rfl⟩
    obtain ⟨hfile, htest⟩ := Bool.and_eq_true_iff.1 hpasses
    cases e with
    | file content mode =>
      rw [isDeclaration_pathBelow hp hrel]
      exact ⟨htest, content, mode, rel, hrel, hget, pathBelow_path base rel⟩
    | _ => cases hfile

theorem enumerates_sources (hf : fs.find true root = .ok (l, e)) (h : fs.sources s root = .ok list) :
    fs.Enumerates l root isSourceFile list := by
  obtain ⟨l', e', hf', -, hlist, hmem⟩ := sources_eq_ok_iff.1 h
  rw [hf] at hf'
  cases hf'
  have hp := text_ne_empty_of_find hf
  apply enumerates_of_mem hp hlist
  intro q
  simp only [hmem, shown_height_iff]
  constructor
  · rintro ⟨htest, content, mode, rel, ⟨hrel, hown, hget⟩, rfl⟩
    rw [isSource_pathBelow hp hrel] at htest
    exact ⟨rel, _, ⟨hrel, hget⟩, Bool.and_eq_true_iff.2 ⟨List.all_eq_true.2 hown, htest⟩, rfl⟩
  · rintro ⟨rel, e, ⟨hrel, hget⟩, hpasses, rfl⟩
    obtain ⟨hregular, htest⟩ := Bool.and_eq_true_iff.1 hpasses
    obtain ⟨hfile, hown⟩ := Bool.and_eq_true_iff.1 hregular
    cases e with
    | file content mode =>
      rw [isSource_pathBelow hp hrel]
      exact ⟨htest, content, mode, rel, ⟨hrel, List.all_eq_true.1 hown, hget⟩, rfl⟩
    | _ => cases hfile

theorem exists_walk_iff_of_find (hf : fs.find true p = .ok (l, e)) : (∃ found, fs.walk s keep p = .ok found) ↔
    ∀ rel mode, (rel, .directory mode) ∈ fs.entriesBelow l → (∀ n ∈ rel, keep n = true) →
      accept (pathBelow p rel) = .ok () := by
  rw [exists_walk_iff, hf]
  simp only [Walkable, shown_height_iff, mem_entriesBelow_iff]
  constructor
  · rintro ⟨l', e', hf', h⟩ rel mode ⟨hrel, hget⟩ hkeep
    cases hf'
    exact h rel mode ⟨hrel, hkeep, hget⟩
  · intro h
    refine ⟨l, e, rfl, ?_⟩
    rintro rel mode ⟨hrel, hkeep, hget⟩
    exact h rel mode ⟨hrel, hget⟩ hkeep

theorem mem_declarations_iff {paths : PathSet} (hf : fs.find true base.path = .ok (l, .directory mode))
    (hpaths : fs.snapshot s base.path = .ok paths) (hlist : fs.declarations s' base.path = .ok list) :
    q ∈ list ↔ q ∈ paths.toList ∧ (∃ content mode, fs.entryAt? q = some (.file content mode)) ∧
      ∃ n stem, q.fileName = some n ∧ n.text = stem ++ ".d.ts" := by
  rw [mem_snapshot_of_find hf hpaths, mem_declarations_of_find hf hlist, ← Declaration.isDeclaration_iff]
  constructor
  · rintro ⟨hname, content, mode', rel, hrel, hget, rfl⟩
    exact ⟨⟨_, rel, hrel, hget, rfl⟩, ⟨content, mode', entryAt?_below hf hrel hget⟩, hname⟩
  · rintro ⟨⟨e, rel, hrel, hget, rfl⟩, ⟨content, mode', hentry⟩, hname⟩
    rw [entryAt?_below hf hrel hget] at hentry
    cases hentry
    exact ⟨hname, content, mode', rel, hrel, hget, rfl⟩

theorem mem_snapshot_above {paths : PathSet} {k : Location} (h : fs.snapshot s base.path = .ok paths)
    (hq : q ∈ paths.toList) (hk : k.isBelow base = true) (hqk : q.isWithin k.path = true) :
    k.path ∈ paths.toList := by
  have hclosed := closed_of_snapshot h
  obtain ⟨rel, -, rfl⟩ := hclosed.below q hq
  exact hclosed.mem_above hk (Location.isWithin_path_iff.1 hqk) hq

/-- The walks of a directory, or of a link to one, against what the tree has below it. They come to an end if
all directories they go into can be opened by their paths. -/
theorem walks_enumerate (fs : FileSystem) (s s' : Schedule) (root : Path) (l : Location) (mode : Nat) :
    (∀ keep found, fs.find true root = .ok (l, .directory mode) → fs.walk s keep root = .ok found →
      found.Perm (((fs.entriesBelow l).filter fun (rel, _) => rel.all keep).map fun (rel, e) =>
        (pathBelow root rel, e))) ∧
    (∀ base, root.absolute fs.cwd = .ok (Location.path base) →
      fs.find true (Location.path base) = .ok (l, .directory mode) →
      ((∃ paths, fs.snapshot s root = .ok paths) ↔ ∀ rel mode, (rel, .directory mode) ∈ fs.entriesBelow l →
        accept (Location.path (base ++ rel)) = .ok ()) ∧
      ((∃ list, fs.declarations s' root = .ok list) ↔ ∃ paths, fs.snapshot s root = .ok paths) ∧
      ∀ paths list, fs.snapshot s root = .ok paths → fs.declarations s' root = .ok list →
        fs.Enumerates l (Location.path base) (fun _ _ => true) paths.toList ∧
        (∀ q ∈ paths.toList, ∀ k, Location.isBelow k base = true → q.isWithin (Location.path k) = true →
          Location.path k ∈ paths.toList) ∧
        fs.Enumerates l (Location.path base) isDeclarationFile list ∧
        ∀ q, q ∈ list ↔ q ∈ paths.toList ∧ (∃ content mode, fs.entryAt? q = some (.file content mode)) ∧
          ∃ n stem, q.fileName = some n ∧ n.text = stem ++ ".d.ts") ∧
    (fs.find true root = .ok (l, .directory mode) →
      ((∃ list, fs.sources s root = .ok list) ↔ ∀ rel mode, (rel, .directory mode) ∈ fs.entriesBelow l →
        (∀ n ∈ rel, n.text ≠ "node_modules") → accept (pathBelow root rel) = .ok ()) ∧
      ∀ list, fs.sources s root = .ok list → fs.Enumerates l root isSourceFile list) := by
  refine ⟨fun _ _ => walk_perm, ?_, ?_⟩
  · intro base hroot hf
    rw [snapshot_of_absolute hroot, declarations_of_absolute hroot]
    have hends (s : Schedule) : (∃ found, fs.walk s anyName base.path = .ok found) ↔ ∀ rel mode,
        (rel, .directory mode) ∈ fs.entriesBelow l → accept (Location.path (base ++ rel)) = .ok () := by
      rw [exists_walk_iff_of_find hf]
      simp [anyName, pathBelow_path]
    refine ⟨?_, ?_, ?_⟩
    · rw [snapshot_path, Results.exists_map_eq_ok_iff, hends]
    · rw [snapshot_path, declarations_path, Results.exists_map_eq_ok_iff, Results.exists_map_eq_ok_iff, hends, hends]
    · intro paths list hpaths hlist
      exact ⟨enumerates_snapshot hf hpaths, fun q hq k => mem_snapshot_above hpaths hq,
        enumerates_declarations hf hlist, fun q => mem_declarations_iff hf hpaths hlist⟩
  · intro hf
    constructor
    · rw [sources_eq, Results.exists_map_eq_ok_iff, exists_walk_iff_of_find hf]
      simp [isOwn]
    · intro list hlist
      exact enumerates_sources hf hlist

namespace Sample

def real : Location := [⟨"real", by decide⟩]

def view : Location := [⟨"view", by decide⟩]

def linked : FileSystem :=
  let fs := (FileSystem.empty.put real (.directory 0o755)).put view (.link "real")
  let fs := (fs.put (real ++ [⟨"aa.d.ts", by decide⟩]) (.file "".toUTF8 0o644)).put (real ++ [⟨".ts", by decide⟩])
    (.file "".toUTF8 0o644)
  let fs := (fs.put (real ++ [⟨"b.d.ts", by decide⟩]) (.directory 0o755)).put
    (real ++ [⟨"b.d.ts", by decide⟩, ⟨"b.ts", by decide⟩]) (.file "".toUTF8 0o644)
  let fs := (fs.put (real ++ [⟨"node_modules", by decide⟩]) (.directory 0o755)).put
    (real ++ [⟨"node_modules", by decide⟩, ⟨"c.d.ts", by decide⟩]) (.file "".toUTF8 0o644)
  fs.put (real ++ [⟨"l.d.ts", by decide⟩]) (.link "..")

end Sample

theorem walks_enumerate_sample :
    ∃ paths list sources, Sample.linked.snapshot .inOrder ⟨"./view"⟩ = .ok paths ∧
      Sample.linked.declarations .inOrder ⟨"./view"⟩ = .ok list ∧
      Sample.linked.sources .inOrder ⟨"./view"⟩ = .ok sources ∧
      paths.size = 7 ∧ list = [⟨"/view/aa.d.ts"⟩, ⟨"/view/node_modules/c.d.ts"⟩] ∧
      sources = [⟨"./view/aa.d.ts"⟩, ⟨"./view/b.d.ts/b.ts"⟩] ∧
      Sample.linked.Enumerates Sample.real (Location.path Sample.view) (fun _ _ => true) paths.toList ∧
      Sample.linked.Enumerates Sample.real (Location.path Sample.view) isDeclarationFile list ∧
      Sample.linked.Enumerates Sample.real ⟨"./view"⟩ isSourceFile sources := by
  have hroot : Path.absolute Sample.linked.cwd ⟨"./view"⟩ = .ok (Location.path Sample.view) :=
    Results.eq_ok_of_toOption (by decide +kernel)
  have hbase : Sample.linked.find true (Location.path Sample.view) = .ok (Sample.real, .directory 0o755) :=
    Results.eq_ok_of_toOption (by decide +kernel)
  have hself : Sample.linked.find true ⟨"./view"⟩ = .ok (Sample.real, .directory 0o755) :=
    Results.eq_ok_of_toOption (by decide +kernel)
  obtain ⟨-, hwalks, hsources⟩ :=
    walks_enumerate Sample.linked .inOrder .inOrder ⟨"./view"⟩ Sample.real 0o755
  obtain ⟨hends, hboth, henumerate⟩ := hwalks Sample.view hroot hbase
  have hopen : ∀ x ∈ Sample.linked.entriesBelow Sample.real,
      accept (Location.path (Sample.view ++ x.1)) = .ok () := by
    simp only [accept_eq_ok_iff]
    decide +kernel
  have hsnapshot : ∃ paths, Sample.linked.snapshot .inOrder ⟨"./view"⟩ = .ok paths := by
    rw [hends]
    intro rel mode hrel
    exact hopen (rel, .directory mode) hrel
  obtain ⟨paths, hpaths⟩ := hsnapshot
  have hlist : Sample.linked.declarations .inOrder ⟨"./view"⟩ =
      .ok [⟨"/view/aa.d.ts"⟩, ⟨"/view/node_modules/c.d.ts"⟩] := Results.eq_ok_of_toOption (by decide +kernel)
  have hfound : Sample.linked.sources .inOrder ⟨"./view"⟩ = .ok [⟨"./view/aa.d.ts"⟩, ⟨"./view/b.d.ts/b.ts"⟩] :=
    Results.eq_ok_of_toOption (by decide +kernel)
  obtain ⟨hall, -, hdeclarations, -⟩ := henumerate paths _ hpaths hlist
  have hsize : paths.size = 7 := by
    rw [PathSet.size, hall.perm.length_eq, List.length_map]
    decide +kernel
  exact ⟨paths, _, _, hpaths, hlist, hfound, hsize, rfl, rfl, hall, hdeclarations,
    (hsources hself).2 _ hfound⟩

end FileSystem

end DeclBundle
