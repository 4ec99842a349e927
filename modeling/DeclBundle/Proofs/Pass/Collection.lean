import DeclBundle.Proofs.Pass.Abort
import DeclBundle.Proofs.Pass.Merging

/-!
A bundle comes of what stands below the output directory, by the names that lead there from it. Where
the directory itself is does not matter: a common beginning of all paths does not change their order.
-/

namespace DeclBundle

open FileSystem Stage

theorem compare_append_left (base a b : List Path.Component) : compare (base ++ a) (base ++ b) = compare a b := by
  induction base with
  | nil => rfl
  | cons x base ih =>
    have hx : compare x x = .eq := Std.ReflCmp.compare_self
    rw [List.compare_eq_compareLex] at ih ⊢
    rw [List.cons_append, List.cons_append, List.compareLex_cons_cons, hx]
    exact ih

theorem Location.compare_path_append (base k l : Location) :
    compare (path (base ++ k)) (path (base ++ l)) = compare (path k) (path l) := by
  have hpath (a b : Location) : compare (path a) (path b) =
      compare (a.map Path.Component.name) (b.map Path.Component.name) := by
    have happend := compare_append_left [.root] (a.map Path.Component.name) (b.map Path.Component.name)
    rw [List.singleton_append, List.singleton_append, ← components_path, ← components_path] at happend
    exact happend
  rw [hpath, hpath, List.map_append, List.map_append, compare_append_left]

namespace FileSystem

variable {fs : FileSystem} {s : Schedule} {base k l : Location} {rel : List Name} {e : Entry} {content : ByteArray}

def HasFile (fs : FileSystem) (base : Location) (rel : List Name) (content : ByteArray) : Prop :=
  rel ≠ [] ∧ ∃ k mode, fs.LeadsTo base k ∧ fs.get? (k ++ rel) = some (.file content mode)

theorem leadsTo_of_find (h : fs.find true base.path = .ok (k, e)) (hd : fs.isDirectoryAt k = true) :
    fs.LeadsTo base k := by
  obtain ⟨mode, rfl⟩ := Entry.isDirectory_iff.1 ((isDirectoryAt_of_find h).symm.trans hd)
  exact ⟨mode, (find_path_eq_ok_iff.1 h).2⟩

theorem hasFile_iff_of_find (h : fs.find true base.path = .ok (k, e)) : fs.HasFile base rel content ↔
    rel ≠ [] ∧ ∃ mode, fs.get? (k ++ rel) = some (.file content mode) := by
  constructor
  · rintro ⟨hrel, j, mode, ⟨mode', hj⟩, hget⟩
    rw [(find_path_eq_ok_iff.1 h).2] at hj
    cases hj
    exact ⟨hrel, mode, hget⟩
  · rintro ⟨hrel, mode, hget⟩
    exact ⟨hrel, k, mode, leadsTo_of_find h (isDirectoryAt_of_append hget hrel), hget⟩

theorem hasFile_iff_of_isDirectoryAt (h : fs.isDirectoryAt base = true) : fs.HasFile base rel content ↔
    rel ≠ [] ∧ ∃ mode, fs.get? (base ++ rel) = some (.file content mode) := by
  have hself := leadsTo_self h
  constructor
  · rintro ⟨hrel, k, mode, hk, hget⟩
    obtain rfl := hk.unique hself
    exact ⟨hrel, mode, hget⟩
  · rintro ⟨hrel, mode, hget⟩
    exact ⟨hrel, base, mode, hself, hget⟩

theorem HasFile.find (h : fs.HasFile base rel content) (ha : accept base.path = .ok ()) :
    ∃ k mode, fs.find true base.path = .ok (k, .directory mode) := by
  obtain ⟨-, k, -, ⟨mode, hk⟩, -⟩ := h
  exact ⟨k, mode, find_path_eq_ok_iff.2 ⟨ha, hk⟩⟩

theorem HasFile.unique {content' : ByteArray} (h : fs.HasFile base rel content) (h' : fs.HasFile base rel content') :
    content = content' := by
  obtain ⟨-, k, mode, hk, hget⟩ := h
  obtain ⟨-, j, mode', hj, hget'⟩ := h'
  obtain rfl := hk.unique hj
  rw [hget] at hget'
  cases hget'
  rfl

theorem HasFile.eq_of_read {text : String} (h : fs.HasFile base rel content)
    (hread : fs.read (Location.path (base ++ rel)) = .ok text) : content = text.toUTF8 := by
  obtain ⟨hrel, k, mode, hk, hget⟩ := h
  obtain ⟨l, content', mode', hfind, htext⟩ := read_eq_ok_iff.1 hread
  have hresolve := (find_path_eq_ok_iff.1 hfind).2
  rw [hk.resolve_append_downs hrel hget (.inr rfl)] at hresolve
  cases hresolve
  exact (toUTF8_of_fromUTF8? htext).symm

end FileSystem

namespace Stage

variable {s : Schedule} {st st' : State} {fs : FileSystem} {base : Location} {rel : List Name} {found : List Path}
  {texts : List String} {q : Path}

def Declares (rel : List Name) : Prop :=
  ∃ n, rel.getLast? = some n ∧ Declaration.suffix.toList <:+ n.text.toList

theorem isDeclaration_path_iff (hrel : rel ≠ []) :
    Declaration.isDeclaration (Location.path (base ++ rel)) = true ↔ Declares rel := by
  obtain ⟨front, n, rfl⟩ := (List.eq_nil_or_concat rel).resolve_left hrel
  rw [List.concat_eq_append, Declaration.isDeclaration, ← List.append_assoc, Location.fileName_path, Declares]
  simp

theorem mem_listDeclarations_iff (h : listDeclarations s fs base.path = .ok found) : q ∈ found ↔
    ∃ rel, q = Location.path (base ++ rel) ∧ Declares rel ∧ ∃ content, fs.HasFile base rel content := by
  rw [listDeclarations] at h
  split at h
  next err herr =>
    split at h
    next hnone =>
      cases h
      constructor
      · rintro ⟨⟩
      · rintro ⟨rel, -, -, content, hfile⟩
        cases ha : accept base.path with
        | error err' =>
          rw [find_path_of_error ha] at herr
          cases herr
          simp [not_isNotFound_of_accept ha] at hnone
        | ok u =>
          obtain ⟨k, mode, hfind⟩ := hfile.find ha
          rw [hfind] at herr
          cases herr
    next => cases h
  next =>
    obtain ⟨k, e, hfind, -, hmem⟩ := mem_declarations h
    rw [hmem]
    constructor
    · rintro ⟨hname, content, mode, rel, hrel, hget, rfl⟩
      exact ⟨rel, rfl, (isDeclaration_path_iff hrel).1 hname, content, (hasFile_iff_of_find hfind).2 ⟨hrel, mode, hget⟩⟩
    · rintro ⟨rel, rfl, hname, content, hfile⟩
      obtain ⟨hrel, mode, hget⟩ := (hasFile_iff_of_find hfind).1 hfile
      exact ⟨(isDeclaration_path_iff hrel).2 hname, content, mode, rel, hrel, hget, rfl⟩

def Stale (c : Context) : Prop :=
  c.before.any (·.contains c.config.bundlePath) = true

theorem mem_inputs_iff {c : Context} : q ∈ inputs c found ↔
    q ∈ found ∧ (Stale c → q.same c.config.bundlePath = false) := by
  rw [inputs, Stale]
  split
  next h => simp [h]
  next h => simp [h]

theorem inputs_sublist (c : Context) (found : List Path) : (inputs c found).Sublist found := by
  rw [inputs]
  split
  · exact List.filter_sublist
  · exact List.Sublist.refl _

def Included (st : State) (rel : List Name) : Prop :=
  Declares rel ∧ (∃ content, st.files.HasFile st.context.config.outDir rel content) ∧
    (Stale st.context → rel ≠ [st.context.config.bundleName])

theorem mem_inputs_iff_included (h : listDeclarations s st.files st.context.config.outDir.path = .ok found) :
    q ∈ inputs st.context found ↔
      ∃ rel, q = Location.path (st.context.config.outDir ++ rel) ∧ Included st rel := by
  have hsame (rel : List Name) : Path.same (Location.path (st.context.config.outDir ++ rel))
      st.context.config.bundlePath = false ↔ rel ≠ [st.context.config.bundleName] := by
    rw [Bool.eq_false_iff, ne_eq, Config.bundlePath, Location.same_path_iff, Config.bundle]
    simp
  rw [mem_inputs_iff, mem_listDeclarations_iff h]
  constructor
  · rintro ⟨⟨rel, rfl, hname, hfile⟩, hstale⟩
    exact ⟨rel, rfl, hname, hfile, fun h => (hsame rel).1 (hstale h)⟩
  · rintro ⟨rel, rfl, hname, hfile, hstale⟩
    exact ⟨⟨rel, rfl, hname, hfile⟩, fun h => (hsame rel).2 (hstale h)⟩

/-- What a merge makes of the files below its output directory, by the names that lead to them. -/
structure Collects (st st' : State) (rels : List (List Name)) (texts : List String) : Prop where
  increasing : rels.Pairwise fun r r' => compare (Location.path r) (Location.path r') = .lt
  mem_iff : ∀ rel, rel ∈ rels ↔ Included st rel
  length_eq : rels.length = texts.length
  hasFile : ∀ rel text, (rel, text) ∈ rels.zip texts →
    st.files.HasFile st.context.config.outDir rel text.toUTF8
  declarations_eq : st'.context.declarations =
    rels.map fun rel => Location.path (st.context.config.outDir ++ rel)
  declarations_increasing : st'.context.declarations.Pairwise fun p q => compare p q = .lt
  bundle_eq : st'.context.bundle = some ⟨st.context.config.bundlePath, Declaration.merge texts⟩
  written : ∃ prepared place mode, Grown st.files prepared st.context.config.outDir ∧
    prepared.place? st.context.config.bundlePath = some place ∧
    Replaced prepared st'.files place (Declaration.merge texts) mode ∧
    ∀ k, st'.files.LeadsTo st.context.config.outDir k →
      st'.files.entryAt? st.context.config.bundlePath = some (.file (Declaration.merge texts).toUTF8 mode)

theorem exists_rels (h : ∀ q ∈ found, ∃ rel, q = Location.path (base ++ rel)) :
    ∃ rels : List (List Name), found = rels.map fun rel => Location.path (base ++ rel) := by
  induction found with
  | nil => exact ⟨[], rfl⟩
  | cons q found ih =>
    obtain ⟨⟨rel, rfl⟩, hfound⟩ := List.forall_mem_cons.1 h
    obtain ⟨rels, rfl⟩ := ih hfound
    exact ⟨rel :: rels, rfl⟩

theorem read_of_mem_zip {rels : List (List Name)} {text : String}
    (h : (rels.map fun rel => Location.path (base ++ rel)).map fs.read = texts.map .ok)
    (hmem : (rel, text) ∈ rels.zip texts) : fs.read (Location.path (base ++ rel)) = .ok text := by
  induction rels generalizing texts with
  | nil => cases hmem
  | cons rel' rels ih =>
    cases texts with
    | nil => cases hmem
    | cons text' texts =>
      rw [List.map_cons, List.map_cons, List.map_cons, List.cons.injEq] at h
      rcases List.mem_cons.1 hmem with hfirst | hrest
      · cases hfirst
        exact h.1
      · exact ih h.2 hrest

theorem exists_collects (h : (runMerge s).run st = (.ok (), st')) : ∃ rels texts, Collects st st' rels texts := by
  obtain ⟨found, texts, diagnostics, hlist, hread, -, hcontext⟩ := run_merge_eq_ok h
  obtain ⟨found', texts', prepared, place, mode, hlist', hread', hgrown, hplace, hreplaced, hlater⟩ :=
    Pipeline.replaced_of_merge_ok h
  rw [hlist] at hlist'
  cases hlist'
  rw [hread] at hread'
  cases hread'
  have hmem (q : Path) := mem_inputs_iff_included (q := q) hlist
  have hincreasing := (pairwise_listDeclarations hlist).sublist (inputs_sublist st.context found)
  have hmap := readAll_eq_ok hread
  obtain ⟨rels, hrels⟩ := exists_rels fun q hq => ((hmem q).1 hq).imp fun _ h => h.1
  rw [hrels] at hmem hincreasing hmap hcontext
  have hincluded (rel : List Name) : rel ∈ rels ↔ Included st rel := by
    constructor
    · intro hrel
      obtain ⟨rel', heq, h⟩ := (hmem _).1 (List.mem_map_of_mem hrel)
      rwa [List.append_cancel_left (Location.path_injective heq)]
    · intro h
      obtain ⟨rel', hrel, heq⟩ := List.mem_map.1 ((hmem _).2 ⟨rel, rfl, h⟩)
      rwa [← List.append_cancel_left (Location.path_injective heq)]
  refine ⟨rels, texts, ?_⟩
  constructor
  case increasing =>
    rw [List.pairwise_map] at hincreasing
    simpa only [Location.compare_path_append] using hincreasing
  case mem_iff => exact hincluded
  case length_eq => simpa using congrArg List.length hmap
  case hasFile =>
    intro rel text hzip
    obtain ⟨-, ⟨content, hfile⟩, -⟩ := (hincluded rel).1 (List.of_mem_zip hzip).1
    rwa [← hfile.eq_of_read (read_of_mem_zip hmap hzip)]
  case declarations_eq => rw [hcontext]
  case declarations_increasing =>
    rw [hcontext]
    exact hincreasing
  case bundle_eq => rw [hcontext]
  case written => exact ⟨prepared, place, mode, hgrown, hplace, hreplaced, hlater⟩

theorem eq_of_increasing {rels rels' : List (List Name)}
    (h : rels.Pairwise fun r r' => compare (Location.path r) (Location.path r') = .lt)
    (h' : rels'.Pairwise fun r r' => compare (Location.path r) (Location.path r') = .lt)
    (hmem : ∀ rel, rel ∈ rels ↔ rel ∈ rels') : rels = rels' := by
  have hset : PathSet.mk (rels.map Location.path) (List.pairwise_map.2 h) =
      ⟨rels'.map Location.path, List.pairwise_map.2 h'⟩ := by
    apply PathSet.ext_mem
    intro p
    simp only [List.mem_map, hmem]
  have hmap : rels.map Location.path = rels'.map Location.path := congrArg PathSet.toList hset
  exact (List.map_inj_right fun _ _ => Location.path_injective).1 hmap

theorem texts_unique {rels : List (List Name)} {texts' : List String} (hlen : rels.length = texts.length)
    (hlen' : rels.length = texts'.length)
    (h : ∀ rel text, (rel, text) ∈ rels.zip texts → fs.HasFile base rel text.toUTF8)
    (h' : ∀ rel text, (rel, text) ∈ rels.zip texts' → fs.HasFile base rel text.toUTF8) : texts = texts' := by
  induction rels generalizing texts texts' with
  | nil => rw [List.length_eq_zero_iff.1 hlen.symm, List.length_eq_zero_iff.1 hlen'.symm]
  | cons rel rels ih =>
    obtain ⟨text, texts, rfl⟩ := List.exists_cons_of_length_eq_add_one hlen.symm
    obtain ⟨text', texts', rfl⟩ := List.exists_cons_of_length_eq_add_one hlen'.symm
    have hutf8 : text.toUTF8 = text'.toUTF8 :=
      (h rel text List.mem_cons_self).unique (h' rel text' List.mem_cons_self)
    have htext := congrArg String.fromUTF8? hutf8
    rw [fromUTF8?_toUTF8, fromUTF8?_toUTF8] at htext
    have hrest : texts = texts' := by
      apply ih
      · simpa using hlen
      · simpa using hlen'
      · intro rel text hmem
        exact h rel text (List.mem_cons_of_mem _ hmem)
      · intro rel text hmem
        exact h' rel text (List.mem_cons_of_mem _ hmem)
    rw [Option.some.inj htext, hrest]

/-- A merge that succeeds collects the declaration files below its output directory, in order, but no
bundle that was there before. Two merges that find the same files by the same names below their
directories, wherever these are, make the same bundle of them. -/
theorem merge_collects :
    (∀ s st st', (runMerge s).run st = (.ok (), st') → ∃ rels texts, Collects st st' rels texts) ∧
    ∀ s₁ s₂ st₁ st₁' st₂ st₂', (runMerge s₁).run st₁ = (.ok (), st₁') → (runMerge s₂).run st₂ = (.ok (), st₂') →
      st₁.context.config.bundleName = st₂.context.config.bundleName →
      (Stale st₁.context ↔ Stale st₂.context) →
      (∀ rel content, Declares rel → (st₁.files.HasFile st₁.context.config.outDir rel content ↔
        st₂.files.HasFile st₂.context.config.outDir rel content)) →
      ∃ rels texts, Collects st₁ st₁' rels texts ∧ Collects st₂ st₂' rels texts := by
  refine ⟨fun _ _ _ => exists_collects, ?_⟩
  intro s₁ s₂ st₁ st₁' st₂ st₂' h₁ h₂ hname hstale hfiles
  obtain ⟨rels₁, texts₁, hc₁⟩ := exists_collects h₁
  obtain ⟨rels₂, texts₂, hc₂⟩ := exists_collects h₂
  have hrels : rels₁ = rels₂ := by
    apply eq_of_increasing hc₁.increasing hc₂.increasing
    intro rel
    rw [hc₁.mem_iff, hc₂.mem_iff, Included, Included, hname, hstale]
    apply and_congr_right
    intro hrel
    simp only [hfiles rel _ hrel]
  subst hrels
  have htexts : texts₁ = texts₂ := by
    apply texts_unique hc₁.length_eq hc₂.length_eq hc₁.hasFile
    intro rel text hzip
    have hrel := ((hc₁.mem_iff rel).1 (List.of_mem_zip hzip).1).1
    exact (hfiles rel _ hrel).2 (hc₂.hasFile rel text hzip)
  subst htexts
  exact ⟨rels₁, texts₁, hc₁, hc₂⟩

namespace Sample

open Pipeline.Sample

def filled (fs : FileSystem) (base : Location) : FileSystem :=
  let fs := (fs.put base (.directory 0o755)).put (base ++ [types]) (.file "export type Old = 0".toUTF8 0o644)
  let fs := (fs.put (base ++ [lib]) (.directory 0o755)).put (base ++ [lib, a]) (.file "export type B = 2".toUTF8 0o644)
  fs.put (base ++ [a]) (.file "import b\nexport type A = 1".toUTF8 0o644)

def rebuilding (fs : FileSystem) (base : Location) : State :=
  let c := { config with outDir := base }
  ⟨filled fs base, { Context.new c with before := some (.ofList [c.bundlePath]) }, []⟩

def near : State :=
  rebuilding .empty [out]

def far : State :=
  rebuilding (FileSystem.empty.put [lib] (.directory 0o700)) [lib, out]

theorem get?_of_lowered {fs fs' : FileSystem} {n : Name} {mode : Nat} {l : Location} (hl : l ≠ [])
    (h : fs'.table = fs.table.map (fun place => (n :: place.1, place.2)) ++ [([n], .directory mode)]) :
    fs'.get? (n :: l) = fs.get? l := by
  have hlast : ([([n], Entry.directory mode)] : Table).find? (·.1 = n :: l) = none := by
    simpa using hl.symm
  rw [get?, if_neg (List.cons_ne_nil n l), get?, if_neg hl, h, List.find?_append, List.find?_map, hlast,
    Option.or_none, Option.map_map]
  simp only [Function.comp_def, List.cons.injEq, true_and]

theorem hasFile_near_iff (rel : List Name) (content : ByteArray) :
    near.files.HasFile [out] rel content ↔ far.files.HasFile [lib, out] rel content := by
  have hnear : near.files.isDirectoryAt [out] = true := by decide +kernel
  have hfar : far.files.isDirectoryAt [lib, out] = true := by decide +kernel
  have htable : far.files.table =
      near.files.table.map (fun place => (lib :: place.1, place.2)) ++ [([lib], .directory 0o700)] := by
    decide +kernel
  have hget : far.files.get? ([lib, out] ++ rel) = near.files.get? ([out] ++ rel) :=
    get?_of_lowered (List.cons_ne_nil _ _) htable
  rw [hasFile_iff_of_isDirectoryAt hnear, hasFile_iff_of_isDirectoryAt hfar, hget]

end Sample

theorem merge_collects_sample : ∃ near' far' rels texts,
    (runMerge .inOrder).run Sample.near = (.ok (), near') ∧ (runMerge .reversed).run Sample.far = (.ok (), far') ∧
      near'.context.declarations = [⟨"/out/a.d.ts"⟩, ⟨"/out/lib/a.d.ts"⟩] ∧
      far'.context.declarations = [⟨"/lib/out/a.d.ts"⟩, ⟨"/lib/out/lib/a.d.ts"⟩] ∧
      Collects Sample.near near' rels texts ∧ Collects Sample.far far' rels texts := by
  have hnear : ((runMerge .inOrder).run Sample.near).1.toBool = true ∧
      ((runMerge .inOrder).run Sample.near).2.context.declarations = [⟨"/out/a.d.ts"⟩, ⟨"/out/lib/a.d.ts"⟩] := by
    decide +kernel
  have hfar : ((runMerge .reversed).run Sample.far).1.toBool = true ∧
      ((runMerge .reversed).run Sample.far).2.context.declarations =
        [⟨"/lib/out/a.d.ts"⟩, ⟨"/lib/out/lib/a.d.ts"⟩] := by
    decide +kernel
  have hstale : Stale Sample.near.context ∧ Stale Sample.far.context := by
    rw [Stale, Stale]
    decide +kernel
  obtain ⟨rels, texts, h⟩ := merge_collects.2 _ _ _ _ _ _ (Pass.eq_ok_of_toBool hnear.1) (Pass.eq_ok_of_toBool hfar.1)
    rfl (iff_of_true hstale.1 hstale.2) fun rel content _ => Sample.hasFile_near_iff rel content
  exact ⟨_, _, rels, texts, Pass.eq_ok_of_toBool hnear.1, Pass.eq_ok_of_toBool hfar.1, hnear.2, hfar.2, h⟩

end Stage

end DeclBundle
