import DeclBundle.Proofs.Config
import DeclBundle.Proofs.FileSystem.Reading
import DeclBundle.Proofs.FileSystem.Snapshots
import DeclBundle.Proofs.Pass.Removals
import DeclBundle.Proofs.Pass.Success

/-!
Which declaration files a bundle is made of. All that are found below the output directory are
merged, except the one under the bundle's name if something stood there before the compiler ran.
-/

namespace DeclBundle

open FileSystem

namespace Stage

variable {s : Schedule} {fs : FileSystem} {base k : Location} {found paths : List Path} {texts : List String}
  {p q : Path} {text : String}

theorem mem_listDeclarations (h : listDeclarations s fs base.path = .ok found) (ha : accept base.path = .ok ())
    (hk : fs.LeadsTo base k) : q ∈ found ↔ Declaration.isDeclaration q = true ∧
      ∃ content mode, fs.Below k base q (.file content mode) := by
  obtain ⟨mode, hmode⟩ := hk
  have hfind := find_path_eq_ok_iff.2 ⟨ha, hmode⟩
  rw [listDeclarations, hfind] at h
  exact mem_declarations_of_find hfind h q

theorem mem_listDeclarations_of_free (h : listDeclarations s fs base.path = .ok found) (hfree : fs.FreeOfLinks base)
    (ha : accept base.path = .ok ()) : q ∈ found ↔ Declaration.isDeclaration q = true ∧
      ∃ content mode, fs.Below base base q (.file content mode) := by
  cases hd : fs.isDirectoryAt base with
  | true => exact mem_listDeclarations h ha (leadsTo_self hd)
  | false =>
    have hno : ¬∃ content mode, fs.Below base base q (.file content mode) := by
      rintro ⟨content, mode, rel, hrel, hget, -⟩
      rw [get?_append_eq_none hd hrel] at hget
      cases hget
    rw [listDeclarations] at h
    split at h
    · split at h
      · cases h
        simp [hno]
      · cases h
    · obtain ⟨j, e, hfind, -, hmem⟩ := mem_declarations h
      have hj : j = base := hfree.place_eq (find_path_eq_ok_iff.1 hfind).2
      rw [hmem, hj]

theorem pairwise_listDeclarations (h : listDeclarations s fs base.path = .ok found) :
    found.Pairwise fun p q => compare p q = .lt := by
  rw [listDeclarations] at h
  split at h
  · split at h
    · cases h
      exact .nil
    · cases h
  · obtain ⟨_, _, -, hsorted, -⟩ := mem_declarations h
    exact hsorted

theorem exists_mem_zip (h : paths.map fs.read = texts.map .ok) (hp : p ∈ paths) :
    ∃ text, (p, text) ∈ paths.zip texts ∧ fs.read p = .ok text := by
  induction paths generalizing texts with
  | nil => cases hp
  | cons q paths ih =>
    cases texts with
    | nil => simp at h
    | cons text texts =>
      rw [List.map_cons, List.map_cons, List.cons.injEq] at h
      rcases List.mem_cons.1 hp with rfl | hp
      · exact ⟨text, List.mem_cons_self, h.1⟩
      · obtain ⟨text', hmem, hread⟩ := ih h.2 hp
        exact ⟨text', List.mem_cons_of_mem _ hmem, hread⟩

end Stage

namespace Pipeline

open Stage

variable {compiler : Compiler} {s : Schedule} {c : Config} {fs : FileSystem} {done : State}
  {before after : PathSet} {found : List Path} {texts : List String} {p q : Path} {k : Location}
  {rel : List Name} {content : ByteArray} {mode : Nat} {text : String}

theorem Course.mem_found (hc : Course compiler s c fs before after found texts)
    (hk : (compiled compiler s c fs).LeadsTo c.outDir k) : q ∈ found ↔ Declaration.isDeclaration q = true ∧
      ∃ content mode, (compiled compiler s c fs).Below k c.outDir q (.file content mode) := by
  obtain ⟨ha, -⟩ := hc.written_bundle
  exact mem_listDeclarations hc.listed (accept_path_above ha (List.prefix_append _ _)) hk

theorem mem_chosen_iff : q ∈ chosen before c found ↔
    q ∈ found ∧ (before.contains c.bundlePath = true → q.same c.bundlePath = false) := by
  rw [chosen]
  split
  next h => simp [h]
  next h => simp [h]

theorem pairwise_chosen {tree : FileSystem} {base : Location}
    (h : listDeclarations s tree base.path = .ok found) (before : PathSet) (c : Config) :
    (chosen before c found).Pairwise fun p q => compare p q = .lt := by
  have hfound := pairwise_listDeclarations h
  rw [chosen]
  split
  · exact hfound.filter _
  · exact hfound

theorem Course.pairwise_chosen (hc : Course compiler s c fs before after found texts) :
    (chosen before c found).Pairwise fun p q => compare p q = .lt :=
  Pipeline.pairwise_chosen hc.listed before c

theorem Course.exists_text (hc : Course compiler s c fs before after found texts)
    (hk : (compiled compiler s c fs).LeadsTo c.outDir k) (hrel : rel ≠ [])
    (hget : (compiled compiler s c fs).get? (k ++ rel) = some (.file content mode))
    (hq : Location.path (c.outDir ++ rel) ∈ chosen before c found) : ∃ text,
      String.fromUTF8? content = some text ∧
        (Location.path (c.outDir ++ rel), text) ∈ (chosen before c found).zip texts := by
  obtain ⟨text, hzip, hread⟩ := exists_mem_zip (readAll_eq_ok hc.readable) hq
  obtain ⟨l, content', mode', hfind, htext⟩ := read_eq_ok_iff.1 hread
  have hresolve := (find_path_eq_ok_iff.1 hfind).2
  rw [hk.resolve_append_downs hrel hget (.inr rfl)] at hresolve
  cases hresolve
  exact ⟨text, htext, hzip⟩

structure BundledFrom (st : State) (texts : List String) : Prop where
  length_eq : st.context.declarations.length = texts.length
  bundle_eq : ∃ path, st.context.bundle =
    some ⟨path, "\n".intercalate (texts.map Declaration.stripImports)⟩

theorem Success.bundledFrom (hs : Success compiler s c fs done before after found texts) :
    BundledFrom done texts where
  length_eq := by
    have h := congrArg List.length (readAll_eq_ok hs.readable)
    rwa [List.length_map, List.length_map, ← hs.declarations_eq] at h
  bundle_eq := ⟨_, hs.bundle_eq⟩

theorem isDeclaration_bundlePath {cwd : Location} {options : Options} {clean : CleanPolicy}
    {settings : CompilerSettings} (h : Config.new cwd options clean settings = .ok c) :
    Declaration.isDeclaration c.bundlePath = true :=
  (Config.accepted_of_new h).isDeclaration

/-- A file under the bundle's name is merged if and only if nothing stood there when the compiler
was started. -/
theorem run_merges_bundle_iff {cwd : Location} {options : Options} {clean : CleanPolicy}
    {settings : CompilerSettings} (hc : Config.new cwd options clean settings = .ok c)
    (h : (plain compiler).run s c fs = (.ok (), done))
    (hentry : (compiled compiler s c fs).entryAt? c.bundlePath = some (.file content mode)) :
    done.context.declarations.Pairwise (fun p q => compare p q = .lt) ∧
    (c.bundlePath ∈ done.context.declarations ↔ (cleaned c fs).entryAt? c.bundlePath = none) ∧
    ∃ texts, BundledFrom done texts ∧ ((cleaned c fs).entryAt? c.bundlePath = none → ∃ text,
      String.fromUTF8? content = some text ∧ (c.bundlePath, text) ∈ done.context.declarations.zip texts) := by
  obtain ⟨before, after, found, texts, hs⟩ := exists_success h
  obtain ⟨k, hk, hget⟩ := exists_leadsTo_of_entryAt? hentry
  have hbefore : before.contains c.bundlePath = ((cleaned c fs).entryAt? c.bundlePath).isSome :=
    contains_of_snapshotOrEmpty hs.recorded c.bundleName
  have hfound : c.bundlePath ∈ found :=
    (hs.mem_found hk).2 ⟨isDeclaration_bundlePath hc, content, mode, [c.bundleName], by simp, hget, rfl⟩
  have hchosen : c.bundlePath ∈ chosen before c found ↔ (cleaned c fs).entryAt? c.bundlePath = none := by
    rw [mem_chosen_iff, and_iff_right hfound, hbefore, ← Option.not_isSome_iff_eq_none]
    simp [Path.same]
  rw [hs.declarations_eq]
  refine ⟨hs.pairwise_chosen, hchosen, texts, hs.bundledFrom, ?_⟩
  intro hnone
  exact hs.exists_text hk (by simp) hget (hchosen.2 hnone)

theorem run_merges_bundle_sample : ∃ done content mode,
    Config.new [] ⟨⟨"src"⟩, ⟨"out"⟩, none⟩ .none .default = .ok Sample.config ∧
    (plain Sample.emit).run .inOrder Sample.config .empty = (.ok (), done) ∧
    (compiled Sample.emit .inOrder Sample.config .empty).entryAt? Sample.config.bundlePath =
      some (.file content mode) ∧
    Sample.config.bundlePath ∈ done.context.declarations := by
  have hok : ((plain Sample.emit).run .inOrder Sample.config .empty).1.toBool = true := by decide +kernel
  have hentry : (compiled Sample.emit .inOrder Sample.config .empty).entryAt? Sample.config.bundlePath =
      some (.file "export type B = 2".toUTF8 0o644) := by
    decide +kernel
  have hnone : (cleaned Sample.config .empty).entryAt? Sample.config.bundlePath = none := by decide +kernel
  have h := run_merges_bundle_iff Sample.new_eq (Pass.eq_ok_of_toBool hok) hentry
  exact ⟨_, _, _, Sample.new_eq, Pass.eq_ok_of_toBool hok, hentry, h.2.1.2 hnone⟩

theorem not_forall_bundle_merged : ¬∀ (compiler : Compiler) (s : Schedule) (cwd : Location) (options : Options)
    (clean : CleanPolicy) (settings : CompilerSettings) (c : Config) (fs : FileSystem) (done : State)
    (content : ByteArray) (mode : Nat), Config.new cwd options clean settings = .ok c →
    (plain compiler).run s c fs = (.ok (), done) →
    (compiled compiler s c fs).entryAt? c.bundlePath = some (.file content mode) →
    (cleaned c fs).entryAt? c.bundlePath ≠ some (.file content mode) →
    c.bundlePath ∈ done.context.declarations := by
  intro h
  have hentry : (compiled Sample.emit .inOrder Sample.config Sample.stale).entryAt? Sample.config.bundlePath =
      some (.file "export type B = 2".toUTF8 0o644) := by
    decide +kernel
  have hold : (cleaned Sample.config Sample.stale).entryAt? Sample.config.bundlePath ≠
      some (.file "export type B = 2".toUTF8 0o644) := by
    decide +kernel
  have hmissing : Sample.config.bundlePath ∉
      ((plain Sample.emit).run .inOrder Sample.config Sample.stale).2.context.declarations := by
    decide +kernel
  exact hmissing (h _ _ _ _ _ _ _ _ _ _ _ Sample.new_eq Sample.run_stale hentry hold)

theorem Course.compiled_below (hc : Course compiler s c fs before after found texts)
    (hk : (merged compiler s c fs).LeadsTo c.outDir k) (hrel : rel ≠ []) (hne : rel ≠ [c.bundleName])
    (hget : (merged compiler s c fs).get? (k ++ rel) = some (.file content mode)) :
    (compiled compiler s c fs).LeadsTo c.outDir k ∧
      (compiled compiler s c fs).get? (k ++ rel) = some (.file content mode) := by
  obtain ⟨-, prepared, j, mode', -, ⟨-, j', hj', hsettled⟩, hj, hr⟩ := hc.written_bundle
  have hprepared := hr.leadsTo_of_after hk
  obtain rfl := hprepared.unique hj
  obtain rfl := hprepared.unique hj'
  rw [hr.get?_eq, if_neg (fun h => hne (List.append_cancel_left h))] at hget
  rcases hsettled with rfl | ⟨-, hempty⟩
  · exact ⟨hprepared, hget⟩
  · -- an output directory that was made for the bundle holds nothing else
    rw [isOccupied_eq_false_iff.1 hempty rel hrel] at hget
    cases hget

/-- Every declaration file that goes with a removed path was merged as it was. -/
theorem run_merges_removed {r : Removal} (h : (plain compiler).run s c fs = (.ok (), done))
    (hr : (p, r) ∈ done.context.removals) (hk : (merged compiler s c fs).place? p = some k)
    (hget : (merged compiler s c fs).get? (k ++ rel) = some (.file content mode))
    (hname : Declaration.isDeclaration (pathBelow p rel) = true) : ∃ texts text,
      BundledFrom done texts ∧ String.fromUTF8? content = some text ∧
        (pathBelow p rel, text) ∈ done.context.declarations.zip texts := by
  obtain ⟨before, after, found, texts, hs⟩ := exists_success h
  rw [hs.removals_eq] at hr
  obtain ⟨hafter, hbundle, -⟩ := mem_doomed (mem_doomed_of_removal hr)
  obtain ⟨j, e, hfind, -, hmem⟩ := snapshot_path_eq_ok_iff.1 hs.revisited
  obtain ⟨e', top, htop, hget', rfl⟩ := (hmem p).1 hafter
  have hlead : (merged compiler s c fs).LeadsTo c.outDir j := by
    obtain ⟨mode, hdir⟩ := isDirectoryAt_iff_get?.1 (isDirectoryAt_of_append hget' htop)
    obtain ⟨-, hresolve⟩ := find_path_eq_ok_iff.1 hfind
    rw [get?_of_resolve hresolve] at hdir
    cases hdir
    exact ⟨mode, hresolve⟩
  have hplace : k = j ++ top := by
    rw [place?_path, hlead.resolve_append_downs htop hget' (.inl rfl)] at hk
    exact (Option.some.inj hk).symm
  subst hplace
  -- a removed path is not the bundle's, and nothing below it is, since the bundle is in the directory itself
  have hne : top ++ rel ≠ [c.bundleName] := by
    intro heq
    rcases List.append_eq_singleton_iff.1 heq with ⟨rfl, -⟩ | ⟨rfl, -⟩
    · exact htop rfl
    · rw [Config.bundlePath, Config.bundle, Location.same_path_iff.2 rfl] at hbundle
      cases hbundle
  rw [List.append_assoc] at hget
  obtain ⟨hlead', hget'⟩ := hs.compiled_below hlead (by simp [htop]) hne hget
  rw [pathBelow_path, List.append_assoc] at hname ⊢
  have hchosen : Location.path (c.outDir ++ (top ++ rel)) ∈ chosen before c found := by
    have hfound := (hs.mem_found hlead').2 ⟨hname, content, mode, _, by simp [htop], hget', rfl⟩
    refine mem_chosen_iff.2 ⟨hfound, ?_⟩
    intro _
    rw [Bool.eq_false_iff, ne_eq, Config.bundlePath, Location.same_path_iff, Config.bundle]
    intro heq
    exact hne (List.append_cancel_left heq)
  obtain ⟨text, htext, hzip⟩ := hs.exists_text hlead' (by simp [htop]) hget' hchosen
  exact ⟨texts, text, hs.bundledFrom, htext, by rwa [hs.declarations_eq]⟩

theorem run_merges_removed_sample : ∃ done texts text,
    (plain Sample.emit).run .inOrder Sample.config Sample.stale = (.ok (), done) ∧
    (Location.path [Sample.out, Sample.lib], .removed) ∈ done.context.removals ∧ BundledFrom done texts ∧
    String.fromUTF8? "import x\nexport type A = 1".toUTF8 = some text ∧
    (Location.path [Sample.out, Sample.lib, Sample.a], text) ∈ done.context.declarations.zip texts := by
  have hremoved : (Location.path [Sample.out, Sample.lib], Removal.removed) ∈
      ((plain Sample.emit).run .inOrder Sample.config Sample.stale).2.context.removals := by
    decide +kernel
  have hplace : (merged Sample.emit .inOrder Sample.config Sample.stale).place?
      (Location.path [Sample.out, Sample.lib]) = some [Sample.out, Sample.lib] := by
    decide +kernel
  have hget : (merged Sample.emit .inOrder Sample.config Sample.stale).get?
      ([Sample.out, Sample.lib] ++ [Sample.a]) = some (.file "import x\nexport type A = 1".toUTF8 0o644) := by
    decide +kernel
  have hname : Declaration.isDeclaration (pathBelow (Location.path [Sample.out, Sample.lib]) [Sample.a]) = true := by
    decide +kernel
  obtain ⟨texts, text, h⟩ := run_merges_removed Sample.run_stale hremoved hplace hget hname
  rw [pathBelow_path] at h
  exact ⟨_, texts, text, Sample.run_stale, hremoved, h⟩

end Pipeline

end DeclBundle
