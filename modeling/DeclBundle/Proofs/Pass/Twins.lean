import DeclBundle.Proofs.FileSystem.AlikeWriting
import DeclBundle.Proofs.FileSystem.Reading
import DeclBundle.Proofs.Pass.Emission
import DeclBundle.Proofs.Pass.Failure
import DeclBundle.Proofs.Pass.Removals

namespace DeclBundle

namespace FileSystem

variable {fs fs' gs gs' mid : FileSystem} {base b inDir outDir : Location} {rel : List Name} {n : Name} {text : String}

def NoNewLink (fs fs' : FileSystem) : Prop :=
  ∀ k text, fs'.get? k = some (.link text) → fs.get? k = some (.link text)

theorem NoNewLink.refl (fs : FileSystem) : NoNewLink fs fs :=
  fun _ _ h => h

theorem NoNewLink.trans (h : NoNewLink fs mid) (h' : NoNewLink mid gs) : NoNewLink fs gs :=
  fun k text hk => h k text (h' k text hk)

theorem NoNewLink.unlinked (h : NoNewLink fs fs') (hu : fs.Unlinked base) : fs'.Unlinked base := by
  intro k hk text hlink
  exact hu k hk text (outline_eq_link_iff.2 (h k text (outline_eq_link_iff.1 hlink)))

theorem noNewLink_erase (fs : FileSystem) (l : Location) : NoNewLink fs (fs.erase l) := by
  intro k text hk
  rw [get?_erase] at hk
  split at hk
  · cases hk
  · exact hk

theorem noNewLink_clear (fs : FileSystem) (l : Location) : NoNewLink fs (fs.clear l) := by
  intro k text hk
  rw [get?_clear] at hk
  split at hk
  · cases hk
  · exact hk

theorem noNewLink_remove (hbase : base ≠ []) (hfree : fs.FreeOfLinks (base ++ rel)) :
    NoNewLink fs (fs.remove (Location.path (base ++ rel))).1 := by
  cases ha : accept (Location.path (base ++ rel)) with
  | error err =>
    rw [remove_of_error ha]
    exact .refl fs
  | ok u =>
    rw [remove_path_of_free (by simp [hbase]) ha hfree]
    cases fs.get? (base ++ rel) with
    | none => exact .refl fs
    | some e =>
      cases e with
      | directory mode => exact (noNewLink_clear fs _).trans (noNewLink_erase _ _)
      | _ => exact noNewLink_erase fs _

theorem Grown.noNewLink (h : Grown fs fs' base) : NoNewLink fs fs' := by
  intro k text hk
  cases hf : fs.get? k with
  | some e =>
    rw [h.kept k e hf] at hk
    exact hk
  | none =>
    obtain ⟨he, -⟩ := h.made k _ hk hf
    cases he

theorem noNewLink_replace (fs : FileSystem) (base : Location) (n : Name) (text : String) :
    NoNewLink fs (fs.replace (Location.path (base ++ [n])) text).1 := by
  obtain ⟨hg, -⟩ := makeDirectories_path fs base
  rcases hreplace : fs.replace (Location.path (base ++ [n])) text with ⟨done, r⟩
  intro k target hk
  apply hg.noNewLink
  rcases replace_path hreplace with ⟨err, -, hsame⟩ | ⟨-, -, -, -, j, -, hr⟩
  · rwa [← hsame]
  · rw [hr.get?_eq] at hk
    split at hk
    · cases hk
    · exact hk

theorem Alike.unlinked (h : Alike fs fs' base) (hu : fs.Unlinked base) : fs'.Unlinked base := by
  intro k hk text hlink
  have hne : fs.get? k ≠ some (.link text) := fun hget => hu k hk text (outline_eq_link_iff.2 hget)
  exact h.ne_link hk hne (outline_eq_link_iff.1 hlink)

structure Twins (inDir outDir : Location) (fs fs' : FileSystem) : Prop where
  alike_inDir : Alike fs fs' inDir
  alike_outDir : Alike fs fs' outDir
  unlinked_inDir : fs.Unlinked inDir
  unlinked_outDir : fs.Unlinked outDir

theorem Twins.refl (hin : fs.Unlinked inDir) (hout : fs.Unlinked outDir) : Twins inDir outDir fs fs :=
  ⟨.refl fs inDir, .refl fs outDir, hin, hout⟩

theorem Twins.other (h : Twins inDir outDir fs fs') : Twins inDir outDir fs' fs' :=
  .refl (h.alike_inDir.unlinked h.unlinked_inDir) (h.alike_outDir.unlinked h.unlinked_outDir)

theorem Twins.change (h : Twins inDir outDir fs fs') (halike : ∀ b, Alike fs fs' b → Alike gs gs' b)
    (hlinks : NoNewLink fs gs) : Twins inDir outDir gs gs' :=
  ⟨halike _ h.alike_inDir, halike _ h.alike_outDir, hlinks.unlinked h.unlinked_inDir, hlinks.unlinked h.unlinked_outDir⟩

end FileSystem

open FileSystem

/-- A compiler that reads nothing but what is in its two directories, and changes nothing but what is
in the second; what is above that it may make. -/
structure Compiler.Confined (compiler : Compiler) (inDir outDir : Location) : Prop where
  reads : ∀ fs fs', Twins inDir outDir fs fs' →
    (compiler inDir outDir fs).2 = (compiler inDir outDir fs').2 ∧
      Twins inDir outDir (compiler inDir outDir fs).1 (compiler inDir outDir fs').1
  writes : ∀ fs base, Twins inDir outDir fs fs → base.Apart outDir → Alike fs (compiler inDir outDir fs).1 base

namespace Stage

open Pass

variable {s : Schedule} {compiler : Compiler} {c : Config} {fs fs' : FileSystem} {base b : Location} {paths found : List Path}
  {st : State} {ctx : Context} {calls : List Call}

theorem readSlots_congr (h : ∀ p ∈ paths, fs.read p = fs'.read p) (order : List Nat) (slots : List (Option String)) :
    readSlots fs paths order slots = readSlots fs' paths order slots := by
  induction order generalizing slots with
  | nil => rfl
  | cons i order ih =>
    rw [readSlots, readSlots]
    cases hp : paths[i]? with
    | none => exact ih slots
    | some p =>
      simp only [h p (List.mem_of_getElem? hp)]
      cases fs'.read p with
      | error err => rfl
      | ok text => exact ih _

theorem readAll_congr (h : ∀ p ∈ paths, fs.read p = fs'.read p) (s : Schedule) :
    readAll s fs paths = readAll s fs' paths := by
  rw [readAll, readAll, readSlots_congr h]

theorem mem_of_mem_inputs {p : Path} (h : p ∈ inputs ctx found) : p ∈ found := by
  simp only [inputs] at h
  split at h
  · exact (List.mem_filter.1 h).1
  · exact h

theorem listDeclarations_eq (h : Alike fs fs' base) (hnames : ∀ n ∈ base, n.isStorable = true)
    (hfree : fs.FreeOfLinks base) (s : Schedule) :
    listDeclarations s fs base.path = listDeclarations s fs' base.path := by
  rw [listDeclarations, listDeclarations, h.find_base_eq hnames hfree, h.declarations_eq hnames hfree]

theorem exists_of_mem_listDeclarations {p : Path} (h : listDeclarations s fs base.path = .ok found) (hp : p ∈ found) :
    ∃ rel, p = Location.path (base ++ rel) := by
  rw [listDeclarations] at h
  split at h
  · split at h
    · cases h
      cases hp
    · cases h
  · obtain ⟨_, _, -, -, hmem⟩ := mem_declarations h
    obtain ⟨-, _, _, rel, -, -, rfl⟩ := (hmem p).1 hp
    exact ⟨rel, rfl⟩

theorem removeAll_cons (p : Path) (rest : List Path) (fs : FileSystem) : removeAll (p :: rest) fs =
    ((removeAll rest (fs.remove p).1).1, (p, (fs.remove p).2) :: (removeAll rest (fs.remove p).1).2) := by
  rw [removeAll]

theorem noNewLink_removeAll (hbase : base ≠ []) (hu : fs.Unlinked base)
    (hpaths : ∀ p ∈ paths, ∃ rel, p = Location.path (base ++ rel)) : NoNewLink fs (removeAll paths fs).1 := by
  induction paths generalizing fs with
  | nil => exact .refl fs
  | cons p paths ih =>
    obtain ⟨⟨rel, rfl⟩, hrest⟩ := List.forall_mem_cons.1 hpaths
    have hfirst := noNewLink_remove hbase (hu.freeOfLinks rel)
    rw [removeAll_cons]
    exact hfirst.trans (ih (hfirst.unlinked hu) hrest)

theorem alike_removeAll (h : b.Apart base) (hbase : base ≠ []) (hu : fs.Unlinked base)
    (hpaths : ∀ p ∈ paths, ∃ rel, p = Location.path (base ++ rel)) : Alike fs (removeAll paths fs).1 b := by
  induction paths generalizing fs with
  | nil => exact .refl fs b
  | cons p paths ih =>
    obtain ⟨⟨rel, rfl⟩, hrest⟩ := List.forall_mem_cons.1 hpaths
    have hfirst := noNewLink_remove hbase (hu.freeOfLinks rel)
    rw [removeAll_cons]
    exact (alike_remove h hbase (hu.freeOfLinks rel)).trans (ih (hfirst.unlinked hu) hrest)

theorem removeAll_eq (h : Alike fs fs' base) (hnames : ∀ n ∈ base, n.isStorable = true) (hbase : base ≠ [])
    (hu : fs.Unlinked base) (hpaths : ∀ p ∈ paths, ∃ rel, p = Location.path (base ++ rel)) :
    (removeAll paths fs).2 = (removeAll paths fs').2 ∧
      ∀ b, Alike fs fs' b → Alike (removeAll paths fs).1 (removeAll paths fs').1 b := by
  induction paths generalizing fs fs' with
  | nil => exact ⟨rfl, fun _ hb => hb⟩
  | cons p paths ih =>
    obtain ⟨⟨rel, rfl⟩, hrest⟩ := List.forall_mem_cons.1 hpaths
    have hfirst := noNewLink_remove hbase (hu.freeOfLinks rel)
    obtain ⟨hsame, halike⟩ := h.remove hnames hbase (hu.freeOfLinks rel)
    obtain ⟨hothers, hlater⟩ := ih (halike base h) (hfirst.unlinked hu) hrest
    rw [removeAll_cons, removeAll_cons]
    exact ⟨by rw [hsame, hothers], fun b hb => hlater b (halike b hb)⟩

structure Keeping (c : Config) (ctx : Context) : Prop where
  config_eq : ctx.config = c
  closed_after : ∀ after, ctx.after = some after → Closed c.outDir after

theorem keeping_new (c : Config) : Keeping c (.new c) :=
  ⟨rfl, fun _ h => nomatch h⟩

theorem keeping_swept (h : Keeping c ctx) (path : Path) (removal : Removal) : Keeping c (swept path removal ctx) := by
  refine ⟨(swept_config path removal ctx).trans h.config_eq, ?_⟩
  intro after ha
  apply h.closed_after after
  rw [← ha, swept]
  cases removal.error? <;> rfl

theorem Keeping.mem_doomed {before after : PathSet} (h : Keeping c ctx) (ha : ctx.after = some after) :
    ∀ p ∈ doomed s before after c.bundlePath, ∃ rel, p = Location.path (c.outDir ++ rel) := by
  intro p hp
  obtain ⟨rel, -, rfl⟩ := (h.closed_after after ha).below p (Stage.mem_doomed hp).1
  exact ⟨rel, rfl⟩

inductive Change (compiler : Compiler) (c : Config) (fs : FileSystem) : FileSystem → Prop
  | remove (paths : List Path) (below : ∀ p ∈ paths, ∃ rel, p = Location.path (c.outDir ++ rel)) :
    Change compiler c fs (removeAll paths fs).1
  | compile : Change compiler c fs (compiler c.inDir c.outDir fs).1
  | replace (text : String) : Change compiler c fs (fs.replace c.bundlePath text).1

theorem change_none (compiler : Compiler) (c : Config) (fs : FileSystem) : Change compiler c fs fs :=
  .remove [] (by simp)

theorem stale?_eq_some {p : Path} (h : stale? c = some p) : ∃ rel, p = Location.path (c.outDir ++ rel) := by
  unfold stale? at h
  split at h
  · cases h
    exact ⟨[], by rw [List.append_nil]⟩
  · cases h
    exact ⟨[c.bundleName], rfl⟩
  · cases h

theorem change_bundling {path : Path} (h : path = c.bundlePath) :
    Change compiler c st.files ((bundling s path paths).run st).2.files := by
  subst h
  rw [run_bundling]
  split
  next => exact change_none _ _ _
  next texts _ =>
    have hchange : Change compiler c st.files (st.files.replace c.bundlePath (Declaration.merge texts)).1 := .replace _
    split
    next hr => rwa [hr] at hchange
    next hr => rwa [hr] at hchange

theorem Keeping.change_run (h : Keeping c st.context) (s : Schedule) (compiler : Compiler) (stage : Stage) :
    Change compiler c st.files ((stage.run s compiler).run st).2.files := by
  obtain ⟨files, ctx, calls⟩ := st
  have hc : ctx.config = c := h.config_eq
  cases stage with
  | clean =>
    rw [Stage.run, run_clean_eq, hc]
    cases hp : stale? c with
    | none => exact change_none _ _ _
    | some path =>
      apply Change.remove [path]
      simpa using stale?_eq_some hp
  | snapshotBefore =>
    rw [files_snapshotBefore]
    exact change_none _ _ _
  | compile =>
    rw [files_compiled, hc]
    exact .compile
  | merge =>
    rw [Stage.run, run_merge_listed, hc]
    split
    next => exact change_none _ _ _
    next found _ =>
      have hfiles : (listed found ⟨files, ctx, calls⟩).files = files := by
        rw [listed]
        split <;> rfl
      have hchange : Change compiler c (listed found ⟨files, ctx, calls⟩).files
          ((bundling s c.bundlePath (inputs ctx found)).run (listed found ⟨files, ctx, calls⟩)).2.files := change_bundling rfl
      rwa [hfiles] at hchange
  | snapshotAfter =>
    rw [files_snapshotAfter]
    exact change_none _ _ _
  | prune =>
    rw [Stage.run]
    cases hb : ctx.before with
    | none =>
      rw [run_prune_of_missing (.inl hb)]
      exact change_none _ _ _
    | some before =>
      cases ha : ctx.after with
      | none =>
        rw [run_prune_of_missing (.inr ha)]
        exact change_none _ _ _
      | some after =>
        rw [run_prune hb ha, hc]
        exact .remove _ (h.mem_doomed ha)

structure Beside (c : Config) (st st' : State) : Prop where
  context_eq : st.context = st'.context
  calls_eq : st.calls = st'.calls
  keeping : Keeping c st.context
  twins : Twins c.inDir c.outDir st.files st'.files

def Indifferent (c : Config) (x : Pass Unit) : Prop :=
  ∀ st st', Beside c st st' → (x.run st).1 = (x.run st').1 ∧ Beside c (x.run st).2 (x.run st').2

section Named

variable (hnames : ∀ n ∈ c.outDir, n.isStorable = true)
include hnames

theorem indifferent_bundling (hpaths : ∀ p ∈ paths, ∃ rel, p = Location.path (c.outDir ++ rel)) (s : Schedule) :
    Indifferent c (bundling s c.bundlePath paths) := by
  rintro ⟨files, ctx, calls⟩ ⟨files', ctx', calls'⟩ ⟨rfl, rfl, hkeeping, ht⟩
  have hreads : ∀ p ∈ paths, files.read p = files'.read p := by
    intro p hp
    obtain ⟨rel, rfl⟩ := hpaths p hp
    exact ht.alike_outDir.read_eq hnames (ht.unlinked_outDir.freeOfLinks rel)
  rw [run_bundling, run_bundling, readAll_congr hreads]
  cases readAll s files' paths with
  | error err => exact ⟨rfl, rfl, rfl, hkeeping, ht⟩
  | ok texts =>
    have hlinks := noNewLink_replace files c.outDir c.bundleName (Declaration.merge texts)
    obtain ⟨hsame, halike⟩ := ht.alike_outDir.replace hnames
      (ht.unlinked_outDir.freeOfLinks [c.bundleName]) (Declaration.merge texts)
    have htwins := ht.change halike hlinks
    have hbundle : Location.path (c.outDir ++ [c.bundleName]) = c.bundlePath := rfl
    rw [hbundle] at hsame htwins
    rcases hw : files.replace c.bundlePath (Declaration.merge texts) with ⟨gs, r⟩
    rcases hw' : files'.replace c.bundlePath (Declaration.merge texts) with ⟨gs', r'⟩
    rw [hw, hw'] at hsame htwins
    simp only [hw, hw']
    cases hsame
    cases r with
    | error err => exact ⟨rfl, rfl, rfl, hkeeping, htwins⟩
    | ok u => exact ⟨rfl, rfl, rfl, ⟨hkeeping.config_eq, hkeeping.closed_after⟩, htwins⟩

theorem indifferent_merge (s : Schedule) : Indifferent c (runMerge s) := by
  rintro ⟨files, ctx, calls⟩ ⟨files', ctx', calls'⟩ h
  obtain ⟨rfl, rfl, ⟨rfl, hclosed⟩, ht⟩ := id h
  have hlist := listDeclarations_eq ht.alike_outDir hnames ht.unlinked_outDir.freeOfLinks_self s
  cases hl : listDeclarations s files' ctx.config.outDir.path with
  | error err =>
    rw [run_merge_of_unlisted ⟨files, ctx, calls⟩ (hlist.trans hl), run_merge_of_unlisted ⟨files', ctx, calls⟩ hl]
    exact ⟨rfl, h⟩
  | ok found =>
    rw [run_merge_of_listed ⟨files, ctx, calls⟩ (hlist.trans hl), run_merge_of_listed ⟨files', ctx, calls⟩ hl]
    have hlisted : Beside ctx.config (listed found ⟨files, ctx, calls⟩) (listed found ⟨files', ctx, calls⟩) := by
      rw [listed, listed]
      split
      · exact ⟨rfl, rfl, ⟨rfl, hclosed⟩, ht⟩
      · exact h
    apply indifferent_bundling hnames _ s _ _ hlisted
    intro p hp
    exact exists_of_mem_listDeclarations hl (mem_of_mem_inputs hp)

theorem indifferent_snapshotBefore (s : Schedule) : Indifferent c (runSnapshotBefore s) := by
  rintro ⟨files, ctx, calls⟩ ⟨files', ctx', calls'⟩ h
  obtain ⟨rfl, rfl, ⟨hc, hclosed⟩, ht⟩ := id h
  have hsame := ht.alike_outDir.snapshotOrEmpty_eq hnames ht.unlinked_outDir.freeOfLinks_self s
  rw [run_snapshotBefore, run_snapshotBefore]
  dsimp only at hc ⊢
  rw [hc, hsame]
  cases files'.snapshotOrEmpty s c.outDir.path with
  | error err => exact ⟨rfl, h⟩
  | ok before => exact ⟨rfl, rfl, rfl, ⟨rfl, hclosed⟩, ht⟩

theorem indifferent_snapshotAfter (s : Schedule) : Indifferent c (runSnapshotAfter s) := by
  rintro ⟨files, ctx, calls⟩ ⟨files', ctx', calls'⟩ h
  obtain ⟨rfl, rfl, ⟨hc, -⟩, ht⟩ := id h
  have hsame := ht.alike_outDir.snapshot_eq hnames ht.unlinked_outDir.freeOfLinks_self s
  rw [run_snapshotAfter, run_snapshotAfter]
  dsimp only at hc ⊢
  rw [hc, hsame]
  cases hs : files'.snapshot s c.outDir.path with
  | error err => exact ⟨rfl, h⟩
  | ok after =>
    refine ⟨rfl, rfl, rfl, ⟨rfl, ?_⟩, ht⟩
    rintro _ ⟨⟩
    exact closed_of_snapshot hs

variable (hout : c.outDir ≠ [])
include hout

theorem indifferent_clean : Indifferent c runClean := by
  rintro ⟨files, ctx, calls⟩ ⟨files', ctx', calls'⟩ h
  obtain ⟨rfl, rfl, ⟨hc, hclosed⟩, ht⟩ := id h
  rw [run_clean_eq, run_clean_eq]
  dsimp only at hc ⊢
  rw [hc]
  cases hp : stale? c with
  | none => exact ⟨rfl, h⟩
  | some path =>
    obtain ⟨rel, rfl⟩ := stale?_eq_some hp
    have hfree := ht.unlinked_outDir.freeOfLinks rel
    obtain ⟨hsame, hchanged⟩ := ht.alike_outDir.remove hnames hout hfree
    dsimp only
    rw [← hsame]
    exact ⟨rfl, rfl, rfl, keeping_swept ⟨hc, hclosed⟩ _ _, ht.change hchanged (noNewLink_remove hout hfree)⟩

theorem indifferent_prune (s : Schedule) : Indifferent c (runPrune s) := by
  rintro ⟨files, ctx, calls⟩ ⟨files', ctx', calls'⟩ ⟨rfl, rfl, hkeeping, ht⟩
  have hc := hkeeping.config_eq
  have hdropped : Keeping c (unsnapped ctx) := ⟨hc, fun _ hnone => nomatch hnone⟩
  cases hb : ctx.before with
  | none =>
    rw [run_prune_of_missing (.inl hb), run_prune_of_missing (.inl hb)]
    exact ⟨rfl, rfl, rfl, hdropped, ht⟩
  | some before =>
    cases ha : ctx.after with
    | none =>
      rw [run_prune_of_missing (.inr ha), run_prune_of_missing (.inr ha)]
      exact ⟨rfl, rfl, rfl, hdropped, ht⟩
    | some after =>
      have hdoomed : ∀ p ∈ doomed s before after c.bundlePath, ∃ rel, p = Location.path (c.outDir ++ rel) :=
        hkeeping.mem_doomed ha
      have hlinks := noNewLink_removeAll hout ht.unlinked_outDir hdoomed
      obtain ⟨hsame, hchanged⟩ := removeAll_eq ht.alike_outDir hnames hout ht.unlinked_outDir hdoomed
      rw [run_prune hb ha, run_prune hb ha]
      dsimp only at hc ⊢
      rw [hc, ← hsame]
      exact ⟨rfl, rfl, rfl, ⟨hc, hkeeping.closed_after⟩, ht.change hchanged hlinks⟩

end Named

theorem indifferent_compile (h : compiler.Confined c.inDir c.outDir) : Indifferent c (runCompile compiler) := by
  rintro ⟨files, ctx, calls⟩ ⟨files', ctx', calls'⟩ ⟨rfl, rfl, ⟨hc, hclosed⟩, ht⟩
  obtain ⟨hsame, htwins⟩ := h.reads files files' ht
  rw [run_compile, run_compile]
  dsimp only at hc ⊢
  rw [hc]
  rcases hk : compiler c.inDir c.outDir files with ⟨gs, r⟩
  rcases hk' : compiler c.inDir c.outDir files' with ⟨gs', r'⟩
  rw [hk, hk'] at hsame htwins
  cases hsame
  cases r with
  | error err => exact ⟨rfl, rfl, rfl, ⟨hc, hclosed⟩, htwins⟩
  | ok output => exact ⟨rfl, rfl, rfl, ⟨rfl, hclosed⟩, htwins⟩

section Confined

variable (hout : c.outDir ≠ []) (hnames : ∀ n ∈ c.outDir, n.isStorable = true)
  (hconfined : compiler.Confined c.inDir c.outDir)
include hout hnames hconfined

theorem Change.alike {gs : FileSystem} (h : Change compiler c fs gs) (ht : Twins c.inDir c.outDir fs fs)
    (hb : b.Apart c.outDir) : Alike fs gs b := by
  cases h with
  | remove paths hbelow => exact alike_removeAll hb hout ht.unlinked_outDir hbelow
  | compile => exact hconfined.writes fs b ht hb
  | replace text => exact alike_replace hb hnames ht.unlinked_outDir.freeOfLinks_self c.bundleName text

theorem indifferent_run (s : Schedule) (stage : Stage) : Indifferent c (stage.run s compiler) := by
  cases stage with
  | clean => exact indifferent_clean hnames hout
  | snapshotBefore => exact indifferent_snapshotBefore hnames s
  | compile => exact indifferent_compile hconfined
  | merge => exact indifferent_merge hnames s
  | snapshotAfter => exact indifferent_snapshotAfter hnames s
  | prune => exact indifferent_prune hnames hout s

end Confined

end Stage

end DeclBundle
