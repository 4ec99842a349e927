import DeclBundle.Proofs.Pass.Outlines

/-!
Running a pass again. What is there when the second pass compiles was left by the first or is as it
was then, so that each of its stages comes to what the first came to.
-/

namespace DeclBundle.Pipeline

open FileSystem Stage

variable {compiler : Compiler} {s s' : Schedule} {c : Config} {fs : FileSystem} {done : State}
  {before after : PathSet} {found : List Path} {texts : List String} {files : List Draft} {k l : Location}
  {q : Path} {content : ByteArray}

/-- A successful pass of a compiler that writes some files, over a tree without links. -/
structure Repeatable (compiler : Compiler) (s : Schedule) (c : Config) (fs : FileSystem) (done : State)
    (before after : PathSet) (found : List Path) (texts : List String) (files : List Draft) : Prop
    extends Success compiler s c fs done before after found texts where
  emits : compiler.Emits files
  outDir_ne_root : c.clean = .outDir → c.outDir ≠ []
  unlinked : fs.Unlinked c.outDir
  pruned : done.context.failed = []
  spared : c.clean = .none → ∀ f ∈ files, f.place c.outDir ≠ c.bundle
  named : c.bundleName ∉ temporaryNames

section Repeatable

variable (h : Repeatable compiler s c fs done before after found texts files)

include h

theorem Repeatable.accept_bundle : accept c.bundlePath = .ok () :=
  h.written_bundle.1

theorem Repeatable.accept_outDir : accept c.outDir.path = .ok () :=
  accept_path_above h.accept_bundle (List.prefix_append _ _)

theorem Repeatable.unlinked_cleaned : (cleaned c fs).Unlinked c.outDir :=
  Pipeline.unlinked_cleaned h.outDir_ne_root h.accept_bundle h.unlinked

theorem Repeatable.unlinked_compiled : (compiled compiler s c fs).Unlinked c.outDir :=
  (h.compiled_eq h.emits h.unlinked_cleaned).2.1

theorem Repeatable.outline_compiled (k : Location) :
    (compiled compiler s c fs).outline k = Draft.overlaid c.outDir files k ((cleaned c fs).outline k) :=
  (h.compiled_eq h.emits h.unlinked_cleaned).2.2 k

theorem Repeatable.outline_merged (k : Location) : (merged compiler s c fs).outline k =
    arranged c files (Declaration.merge texts) k ((cleaned c fs).outline k) := by
  rw [arranged_eq, ← h.outline_compiled]
  exact Course.outline_merged h.toCourse h.unlinked_compiled k

theorem Repeatable.outline_done (k : Location) : done.files.outline k =
    if k.isBelow c.outDir = true ∧ k ≠ c.bundle ∧ (cleaned c fs).outline k = none then none
    else (merged compiler s c fs).outline k :=
  Success.outline_done h.toSuccess h.unlinked_cleaned h.unlinked_compiled h.pruned k

theorem Repeatable.unlinked_done : done.files.Unlinked c.outDir := by
  intro k hk text hlink
  rw [h.outline_done] at hlink
  split at hlink
  · cases hlink
  · rw [Course.outline_merged h.toCourse h.unlinked_compiled] at hlink
    exact h.unlinked_compiled k hk text (Draft.laid_eq_link hlink)

theorem Repeatable.unlinked_cleaned_done : (cleaned c done.files).Unlinked c.outDir :=
  Pipeline.unlinked_cleaned h.outDir_ne_root h.accept_bundle h.unlinked_done

theorem Repeatable.outline_cleaned_of_stale (hk : Stale c k) :
    (cleaned c fs).outline k = none ∧ (cleaned c done.files).outline k = none :=
  ⟨(outline_cleaned h.outDir_ne_root h.accept_bundle h.unlinked k).1 hk,
    (outline_cleaned h.outDir_ne_root h.accept_bundle h.unlinked_done k).1 hk⟩

theorem Repeatable.outline_cleaned_of_not_stale (hk : ¬Stale c k) :
    (cleaned c done.files).outline k = done.files.outline k :=
  (outline_cleaned h.outDir_ne_root h.accept_bundle h.unlinked_done k).2 hk

theorem Repeatable.outline_cleaned_done (k : Location) :
    (cleaned c done.files).outline k = (merged compiler s c fs).outline k ∨
      (cleaned c done.files).outline k = none ∧ (cleaned c fs).outline k = none := by
  by_cases hstale : Stale c k
  · exact .inr (h.outline_cleaned_of_stale hstale).symm
  · rw [h.outline_cleaned_of_not_stale hstale, h.outline_done]
    split
    next hnone => exact .inr ⟨rfl, hnone.2.2⟩
    next => exact .inl rfl

theorem Repeatable.outline_cleaned_done_iff (hk : k.isBelow c.outDir = true) (hne : k ≠ c.bundle) :
    (cleaned c done.files).outline k = none ↔ (cleaned c fs).outline k = none := by
  by_cases hstale : Stale c k
  · obtain ⟨hnone, hnone'⟩ := h.outline_cleaned_of_stale hstale
    rw [hnone, hnone']
  · rw [h.outline_cleaned_of_not_stale hstale, h.outline_done]
    by_cases hnone : (cleaned c fs).outline k = none
    · rw [if_pos ⟨hk, hne, hnone⟩, hnone]
    · rw [if_neg fun hall => hnone hall.2.2, h.outline_merged]
      exact iff_of_false (Draft.overlaid_ne_none hnone) hnone

theorem Repeatable.fits : (cleaned c done.files).Fits (merged compiler s c fs) := by
  apply fits_of_outline
  intro k
  rcases h.outline_cleaned_done k with hkept | ⟨hnone, -⟩
  · exact .inr hkept
  · exact .inl hnone

theorem Repeatable.arranged_again (k : Location) :
    arranged c files (Declaration.merge texts) k ((cleaned c done.files).outline k) =
      (merged compiler s c fs).outline k := by
  rw [h.outline_merged]
  rcases h.outline_cleaned_done k with hkept | ⟨hnone, hnone'⟩
  · rw [hkept, h.outline_merged]
    exact Draft.overlaid_overlaid _ _ _ _
  · rw [hnone, hnone']

theorem Repeatable.outline_cleaned_bundle (hclean : c.clean ≠ .none) :
    (cleaned c fs).outline c.bundle = none ∧ (cleaned c done.files).outline c.bundle = none := by
  apply h.outline_cleaned_of_stale
  rw [Stale]
  cases hc : c.clean with
  | outDir => exact List.prefix_append _ _
  | bundle => exact List.prefix_refl _
  | none => exact absurd hc hclean

theorem Repeatable.overlaid_again (hk : k.isBelow c.outDir = true) (hb : k = c.bundle → c.clean ≠ .none) :
    Draft.overlaid c.outDir files k ((cleaned c done.files).outline k) = (compiled compiler s c fs).outline k := by
  rw [h.outline_compiled]
  by_cases hne : k = c.bundle
  · subst hne
    obtain ⟨hnone, hnone'⟩ := h.outline_cleaned_bundle (hb rfl)
    rw [hnone, hnone']
  · rcases h.outline_cleaned_done k with hkept | ⟨hnone, hnone'⟩
    · rw [hkept, h.outline_merged, arranged_eq, laid_bundle_of_ne hk hne]
      exact Draft.overlaid_overlaid _ _ _ _
    · rw [hnone, hnone']

theorem Repeatable.outline_merged_bundle :
    (merged compiler s c fs).outline c.bundle = some (.file (Declaration.merge texts).toUTF8 0) := by
  rw [h.outline_merged, arranged_eq, laid, if_pos rfl]

structure Recompiled (compiler : Compiler) (s : Schedule) (c : Config) (fs : FileSystem) (done : State)
    (files : List Draft) (tree : FileSystem) : Prop where
  fits : tree.Fits (merged compiler s c fs)
  unlinked : tree.Unlinked c.outDir
  outline_eq : ∀ k, tree.outline k = Draft.overlaid c.outDir files k ((cleaned c done.files).outline k)

theorem Repeatable.exists_recompiled : ∃ tree output,
    compiler c.inDir c.outDir (cleaned c done.files) = (tree, .ok output) ∧
      Recompiled compiler s c fs done files tree := by
  have hgoal (f : Draft) (hf : f ∈ files) :
      ((merged compiler s c fs).get? (f.place c.outDir)).any Entry.isFile = true := by
    have hmem : f ∈ files ++ [bundleDraft c (Declaration.merge texts)] := List.mem_append_left _ hf
    obtain ⟨text, htext⟩ := Draft.overlaid_of_mem ⟨f, hmem, rfl⟩
    obtain ⟨mode, hget⟩ := outline_eq_file_iff.1 ((h.outline_merged (f.place c.outDir)).trans (htext _))
    rw [hget]
    rfl
  obtain ⟨tree, htree, hfits⟩ :=
    Draft.exists_writeAll h.fits hgoal (h.compiled_eq h.emits h.unlinked_cleaned).1
  have hrun := h.emits c.inDir c.outDir (cleaned c done.files)
  rw [htree] at hrun
  obtain ⟨tree', output, hrun, hout⟩ := hrun
  obtain ⟨-, hu', hover⟩ := Draft.writeAll_eq_ok h.unlinked_cleaned_done htree
  refine ⟨tree', output, hrun, ?_, ?_, ?_⟩
  · exact (fits_of_outline fun k => .inr (hout k)).trans hfits
  · intro k hk text
    rw [hout]
    exact hu' k hk text
  · intro k
    rw [hout, hover]

end Repeatable

theorem Recompiled.mergeable_iff {tree : FileSystem} (hr : Recompiled compiler s c fs done files tree)
    (h : Repeatable compiler s c fs done before after found texts files) :
    Mergeable c (cleaned c done.files) tree l content ↔
      Mergeable c (cleaned c fs) (compiled compiler s c fs) l content := by
  by_cases hb : l = c.bundle ∧ c.clean = .none
  · -- the bundle of the first pass is still there, and no compiler had written one before it
    obtain ⟨rfl, hclean⟩ := hb
    have hstale : ¬Stale c c.bundle := by simp [Stale, hclean]
    constructor
    · rintro ⟨-, -, hnone⟩
      rw [h.outline_cleaned_of_not_stale hstale, h.outline_done, if_neg (by simp),
        h.outline_merged_bundle] at hnone
      cases hnone rfl
    · rintro ⟨-, hfile, hnone⟩
      rw [h.outline_compiled, hnone rfl] at hfile
      rcases Draft.overlaid_of_not_mem (x := none) (h.spared hclean) with hempty | ⟨-, hmade⟩
      · rw [hempty] at hfile
        cases hfile
      · rw [hmade] at hfile
        cases hfile
  · rw [not_and] at hb
    rw [Mergeable, Mergeable, hr.outline_eq]
    apply and_congr_right
    intro hl
    rw [h.overlaid_again hl hb]
    apply and_congr_right
    intro _
    apply imp_congr_right
    rintro rfl
    obtain ⟨hnone, hnone'⟩ := h.outline_cleaned_bundle (hb rfl)
    rw [hnone, hnone']

theorem Recompiled.chosen_eq {tree : FileSystem} {before' : PathSet} {found' : List Path}
    (hr : Recompiled compiler s c fs done files tree)
    (h : Repeatable compiler s c fs done before after found texts files)
    (hb : (cleaned c done.files).snapshotOrEmpty s' c.outDir.path = .ok before')
    (hl : listDeclarations s' tree c.outDir.path = .ok found') : chosen before' c found' = chosen before c found := by
  have hset : (⟨chosen before' c found', pairwise_chosen hl before' c⟩ : PathSet) =
      ⟨chosen before c found, pairwise_chosen h.listed before c⟩ := by
    apply PathSet.ext_mem
    intro q
    rw [mem_chosen_of_free hb hl h.unlinked_cleaned_done.freeOfLinks_self hr.unlinked.freeOfLinks_self h.accept_outDir,
      mem_chosen_of_free h.recorded h.listed h.unlinked_cleaned.freeOfLinks_self
        h.unlinked_compiled.freeOfLinks_self h.accept_outDir]
    simp only [hr.mergeable_iff h]
  exact congrArg PathSet.toList hset

theorem Recompiled.readAll_eq {tree : FileSystem} (hr : Recompiled compiler s c fs done files tree)
    (h : Repeatable compiler s c fs done before after found texts files) :
    readAll s' tree (chosen before c found) = .ok texts := by
  apply readAll_of_map_read
  rw [← readAll_eq_ok h.readable]
  apply List.map_congr_left
  intro q hq
  obtain ⟨-, l, content, rfl, hm⟩ := (mem_chosen_of_free h.recorded h.listed
    h.unlinked_cleaned.freeOfLinks_self h.unlinked_compiled.freeOfLinks_self h.accept_outDir).1 hq
  exact read_eq_of_outline ((hr.mergeable_iff h).2 hm).2.1 hm.2.1

theorem Recompiled.exists_written {tree : FileSystem} (hr : Recompiled compiler s c fs done files tree)
    (h : Repeatable compiler s c fs done before after found texts files) :
    ∃ written, tree.replace c.bundlePath (Declaration.merge texts) = (written, .ok ()) ∧
      ∀ k, written.outline k = (merged compiler s c fs).outline k := by
  obtain ⟨mode, hbundle⟩ := outline_eq_file_iff.1 h.outline_merged_bundle
  obtain ⟨t, ht, hfree⟩ := exists_temporary_of_replace h.unlinked_compiled.freeOfLinks_self h.written
  have hne : c.outDir ++ [t] ≠ c.bundle := by
    intro heq
    obtain rfl := List.singleton_inj.1 (List.append_cancel_left heq)
    exact h.named ht
  -- the name that was free for staging is so again: at it the tree is what the first compiler left
  have hroom : tree.get? (c.outDir ++ [t]) = none := by
    rw [← outline_eq_none_iff, hr.outline_eq,
      h.overlaid_again (isBelow_iff_append.2 ⟨[t], by simp, rfl⟩) fun heq => absurd heq hne]
    exact outline_eq_none_iff.2 hfree
  obtain ⟨written, hw⟩ := hr.fits.replace hbundle h.accept_bundle ht hroom
  refine ⟨written, hw, ?_⟩
  intro k
  rw [← h.arranged_again, arranged_eq, ← hr.outline_eq]
  exact outline_replace hr.unlinked.freeOfLinks_self hw k

theorem Repeatable.open_merged (h : Repeatable compiler s c fs done before after found texts files) :
    (merged compiler s c fs).isDirectoryAt c.outDir = true ∧ (merged compiler s c fs).Open c.outDir c.outDir := by
  obtain ⟨-, hfree, -⟩ := h.merged_eq h.unlinked_compiled.freeOfLinks_self
  obtain ⟨j, e, hfind, hopen, -⟩ := snapshot_path_eq_ok_iff.1 h.revisited
  obtain rfl : j = c.outDir := hfree.place_eq (find_path_eq_ok_iff.1 hfind).2
  obtain ⟨mode, hbundle⟩ := outline_eq_file_iff.1 h.outline_merged_bundle
  exact ⟨isDirectoryAt_iff_get?.2 (get?_dropLast_of_get? hbundle), hopen⟩

theorem Repeatable.exists_run_again (h : Repeatable compiler s c fs done before after found texts files)
    (s' : Schedule) : ∃ done' before' after' found', (plain compiler).run s' c done.files = (.ok (), done') ∧
      Success compiler s' c done.files done' before' after' found' texts ∧
      chosen before' c found' = chosen before c found ∧ (compiled compiler s' c done.files).Unlinked c.outDir ∧
      ∀ k, (merged compiler s' c done.files).outline k = (merged compiler s c fs).outline k := by
  obtain ⟨hd, hopen⟩ := h.open_merged
  obtain ⟨tree, output, ho, hr⟩ := h.exists_recompiled
  obtain ⟨before', hb⟩ := h.fits.exists_snapshotOrEmpty (s := s') hd h.accept_outDir hopen
  obtain ⟨found', hl⟩ := exists_listDeclarations (s := s') hr.fits hd h.accept_outDir hopen
  have hchosen := hr.chosen_eq h hb hl
  obtain ⟨written, hw, hout⟩ := hr.exists_written h
  have hfits : written.Fits (merged compiler s c fs) := fits_of_outline fun k => .inr (hout k)
  obtain ⟨mode, hm⟩ : ∃ mode, written.get? c.outDir = some (.directory mode) := by
    rw [← isDirectoryAt_iff_get?, ← outline_eq_directory_iff, hout, outline_eq_directory_iff]
    exact hd
  obtain ⟨after', ha⟩ := exists_snapshot (s := s') (find_path h.accept_outDir hm (.inr rfl)) (hfits.open hopen)
  have hreadable : readAll s' tree (chosen before' c found') = .ok texts := by
    rw [hchosen]
    exact hr.readAll_eq h
  obtain ⟨done', hrun, hs, rfl, rfl⟩ := exists_run hb ho hl hreadable hw ha
  exact ⟨done', before', after', found', hrun, hs, hchosen, hr.unlinked, hout⟩

theorem Repeatable.deletionSet_again {done' : State} {before' after' : PathSet} {found' : List Path}
    (h : Repeatable compiler s c fs done before after found texts files)
    (hs : Success compiler s' c done.files done' before' after' found' texts)
    (hu : (compiled compiler s' c done.files).Unlinked c.outDir)
    (hout : ∀ k, (merged compiler s' c done.files).outline k = (merged compiler s c fs).outline k) :
    PathSet.deletionSet before' after' c.bundlePath = PathSet.deletionSet before after c.bundlePath := by
  apply PathSet.ext_mem
  intro q
  rw [hs.mem_deletionSet_iff h.unlinked_cleaned_done hu, h.mem_deletionSet_iff h.unlinked_cleaned h.unlinked_compiled]
  apply exists_congr
  intro l
  apply and_congr_right
  intro _
  apply and_congr_right
  intro hl
  apply and_congr_right
  intro hne
  rw [h.outline_cleaned_done_iff hl hne, hout]

theorem Repeatable.failed_again {done' : State} {before' after' : PathSet} {found' : List Path}
    (h : Repeatable compiler s c fs done before after found texts files)
    (hs : Success compiler s' c done.files done' before' after' found' texts)
    (hu : (compiled compiler s' c done.files).Unlinked c.outDir)
    (hout : ∀ k, (merged compiler s' c done.files).outline k = (merged compiler s c fs).outline k) :
    done'.context.failed = [] := by
  obtain ⟨places, hplaces, hw⟩ := h.exists_swept h.unlinked_compiled.freeOfLinks_self
  obtain ⟨places', hplaces', hw'⟩ := hs.exists_swept hu.freeOfLinks_self
  apply hw'.failed_eq_nil
  intro l hl
  have hdoomed : l.path ∈ doomed s' before' after' c.bundlePath := by
    rw [hplaces']
    exact List.mem_map_of_mem hl
  have hdoomed' : l.path ∈ doomed s before after c.bundlePath := by
    apply (doomed_perm s before after c.bundlePath).mem_iff.2
    rw [← h.deletionSet_again hs hu hout]
    exact (doomed_perm s' before' after' c.bundlePath).mem_iff.1 hdoomed
  rw [hplaces] at hdoomed'
  obtain ⟨k, hk, hpath⟩ := List.mem_map.1 hdoomed'
  rw [← Location.path_injective hpath]
  exact hw.outcome_of_failed h.pruned hk

/-- A pass of a compiler that always writes the same files can be run again over what it has left.
The second pass succeeds and removes all it means to, it merges the same files into the same bundle,
and it leaves the same files, directories and texts. Without a clean policy the compiler must not
write the bundle's file. -/
theorem run_again {cwd : Location} {options : Options} {clean : CleanPolicy} {settings : CompilerSettings}
    (hc : Config.new cwd options clean settings = .ok c) (hemits : compiler.Emits files)
    (hu : fs.Unlinked c.outDir) (hspared : clean = .none → ∀ f ∈ files, f.place c.outDir ≠ c.bundle)
    (hrun : (plain compiler).run s c fs = (.ok (), done)) (hfailed : done.context.failed = []) (s' : Schedule) :
    ∃ done', (plain compiler).run s' c done.files = (.ok (), done') ∧ done'.context.failed = [] ∧
      done'.context.bundle = done.context.bundle ∧ done'.context.declarations = done.context.declarations ∧
      ∀ k, done'.files.outline k = done.files.outline k := by
  have haccepted := Config.accepted_of_new hc
  have hroot : c.clean = .outDir → c.outDir ≠ [] := by
    intro hclean
    rw [haccepted.policy] at hclean
    subst hclean
    exact haccepted.outDir_ne_root
  have hnamed : c.bundleName ∉ temporaryNames := by
    intro hmem
    have hlast := getLast?_of_mem_temporaryNames hmem
    rw [BundleName.text_of_fileName haccepted.bundleName, String.toList_append, List.getLast?_append] at hlast
    cases hlast
  obtain ⟨before, after, found, texts, hs⟩ := exists_success hrun
  have h : Repeatable compiler s c fs done before after found texts files :=
    { hs with
      emits := hemits
      outDir_ne_root := hroot
      unlinked := hu
      pruned := hfailed
      spared := fun hclean => hspared (haccepted.policy ▸ hclean)
      named := hnamed }
  obtain ⟨done', before', after', found', hrun', hs', hchosen, hu', hout⟩ := h.exists_run_again s'
  have hfailed' := h.failed_again hs' hu' hout
  refine ⟨done', hrun', hfailed', ?_, ?_, ?_⟩
  · rw [hs'.bundle_eq, hs.bundle_eq]
  · rw [hs'.declarations_eq, hs.declarations_eq, hchosen]
  · intro k
    rw [hs'.outline_done h.unlinked_cleaned_done hu' hfailed', h.outline_done, hout]
    by_cases hk : k.isBelow c.outDir = true ∧ k ≠ c.bundle
    · simp only [hk, ne_eq, not_false_eq_true, true_and, h.outline_cleaned_done_iff hk.1 hk.2]
    · rw [if_neg fun hall => hk ⟨hall.1, hall.2.1⟩, if_neg fun hall => hk ⟨hall.1, hall.2.1⟩]

theorem run_again_sample : ∃ compiler done done',
    (plain compiler).run .inOrder Sample.config Sample.stale = (.ok (), done) ∧
    done.context.declarations = [Location.path [Sample.out, Sample.lib, Sample.a]] ∧
    (plain compiler).run .inOrder Sample.config done.files = (.ok (), done') ∧
    done'.context.bundle = done.context.bundle ∧ done'.context.declarations = done.context.declarations ∧
    ∀ k, done'.files.outline k = done.files.outline k := by
  let compiler := Compiler.writing [⟨[Sample.lib], Sample.a, "import x\nexport type A = 1"⟩]
  have hok : ((plain compiler).run .inOrder Sample.config Sample.stale).1.toBool = true := by decide +kernel
  have hfailed : ((plain compiler).run .inOrder Sample.config Sample.stale).2.context.failed = [] := by decide +kernel
  have hlist : ((plain compiler).run .inOrder Sample.config Sample.stale).2.context.declarations =
      [Location.path [Sample.out, Sample.lib, Sample.a]] := by
    decide +kernel
  have hrun := Pass.eq_ok_of_toBool hok
  obtain ⟨done', hrun', -, hbundle, hdecl, hout⟩ := run_again Sample.new_eq (Compiler.emits_writing _)
    (unlinked_of_table (by decide +kernel) _) (fun _ => by decide +kernel) hrun hfailed .inOrder
  exact ⟨compiler, _, done', hrun, hlist, hrun', hbundle, hdecl, hout⟩

end DeclBundle.Pipeline
