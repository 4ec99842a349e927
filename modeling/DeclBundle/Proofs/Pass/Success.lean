import DeclBundle.Proofs.FileSystem.Replacement
import DeclBundle.Proofs.Pass.Course
import DeclBundle.Proofs.Pass.Stages

namespace DeclBundle.Pipeline

open FileSystem Stage

variable {compiler : Compiler} {s : Schedule} {c : Config} {fs : FileSystem} {done : State}
  {before after : PathSet} {found : List Path} {texts : List String}

def compiled (compiler : Compiler) (s : Schedule) (c : Config) (fs : FileSystem) : FileSystem :=
  ((plain compiler).stateAt s c fs .merge).files

def merged (compiler : Compiler) (s : Schedule) (c : Config) (fs : FileSystem) : FileSystem :=
  ((plain compiler).stateAt s c fs .prune).files

def chosen (before : PathSet) (c : Config) (found : List Path) : List Path :=
  if before.contains c.bundlePath then found.filter (!·.same c.bundlePath) else found

structure Course (compiler : Compiler) (s : Schedule) (c : Config) (fs : FileSystem)
    (before after : PathSet) (found : List Path) (texts : List String) : Prop where
  recorded : (cleaned c fs).snapshotOrEmpty s c.outDir.path = .ok before
  emitted : ∃ output, compiler c.inDir c.outDir (cleaned c fs) = (compiled compiler s c fs, .ok output)
  listed : listDeclarations s (compiled compiler s c fs) c.outDir.path = .ok found
  readable : readAll s (compiled compiler s c fs) (chosen before c found) = .ok texts
  written : (compiled compiler s c fs).replace c.bundlePath (Declaration.merge texts) =
    (merged compiler s c fs, .ok ())
  revisited : (merged compiler s c fs).snapshot s c.outDir.path = .ok after

structure Success (compiler : Compiler) (s : Schedule) (c : Config) (fs : FileSystem) (done : State)
    (before after : PathSet) (found : List Path) (texts : List String) : Prop
    extends Course compiler s c fs before after found texts where
  files_eq : done.files = (removeAll (doomed s before after c.bundlePath) (merged compiler s c fs)).1
  before_eq : done.context.before = some before
  after_eq : done.context.after = some after
  declarations_eq : done.context.declarations = chosen before c found
  bundle_eq : done.context.bundle = some ⟨c.bundlePath, Declaration.merge texts⟩
  removals_eq : done.context.removals =
    sortRemovals (removeAll (doomed s before after c.bundlePath) (merged compiler s c fs)).2

theorem inputs_eq_chosen {ctx : Context} {before : PathSet} (hc : ctx.config = c) (hb : ctx.before = some before)
    (found : List Path) : inputs ctx found = chosen before c found := by
  rw [inputs, hc, hb]
  rfl

theorem start_snapshotBefore (h : (plain compiler).Starts s c fs .snapshotBefore) :
    ((plain compiler).stateAt s c fs .snapshotBefore).files = cleaned c fs ∧
      ((plain compiler).stateAt s c fs .snapshotBefore).context.config = c := by
  obtain ⟨-, mid, hrun, hstate⟩ := exists_run_stage next?_clean h
  obtain ⟨-, hfiles, hconfig⟩ := run_clean ((plain compiler).stateAt s c fs .clean)
  change runClean.run _ = _ at hrun
  rw [hrun, stateAt_clean_plain] at hfiles hconfig
  rw [hstate]
  exact ⟨hfiles, hconfig⟩

theorem start_compile (h : (plain compiler).Starts s c fs .compile) :
    ∃ before, (cleaned c fs).snapshotOrEmpty s c.outDir.path = .ok before ∧
      ((plain compiler).stateAt s c fs .compile).files = cleaned c fs ∧
      ((plain compiler).stateAt s c fs .compile).context.config = c ∧
      ((plain compiler).stateAt s c fs .compile).context.before = some before := by
  obtain ⟨hs, mid, hrun, hstate⟩ := exists_run_stage next?_snapshotBefore h
  obtain ⟨hfiles, hconfig⟩ := start_snapshotBefore hs
  change (runSnapshotBefore s).run _ = _ at hrun
  rw [run_snapshotBefore, hfiles, hconfig] at hrun
  split at hrun
  next before hb =>
    cases hrun
    rw [hstate]
    exact ⟨before, hb, rfl, hconfig, rfl⟩
  next => cases hrun

theorem start_merge (h : (plain compiler).Starts s c fs .merge) :
    ∃ before output, (cleaned c fs).snapshotOrEmpty s c.outDir.path = .ok before ∧
      compiler c.inDir c.outDir (cleaned c fs) = (compiled compiler s c fs, .ok output) ∧
      ((plain compiler).stateAt s c fs .merge).context.config = c ∧
      ((plain compiler).stateAt s c fs .merge).context.before = some before := by
  obtain ⟨hs, mid, hrun, hstate⟩ := exists_run_stage next?_compile h
  obtain ⟨before, hb, hfiles, hconfig, hbefore⟩ := start_compile hs
  change (runCompile compiler).run _ = _ at hrun
  rw [run_compile, hfiles, hconfig] at hrun
  split at hrun
  next tree output ho =>
    cases hrun
    rw [compiled, hstate]
    exact ⟨before, output, hb, ho, hconfig, hbefore⟩
  next => cases hrun

theorem start_snapshotAfter (h : (plain compiler).Starts s c fs .snapshotAfter) : ∃ before found texts output,
    (cleaned c fs).snapshotOrEmpty s c.outDir.path = .ok before ∧
    compiler c.inDir c.outDir (cleaned c fs) = (compiled compiler s c fs, .ok output) ∧
    listDeclarations s (compiled compiler s c fs) c.outDir.path = .ok found ∧
    readAll s (compiled compiler s c fs) (chosen before c found) = .ok texts ∧
    (compiled compiler s c fs).replace c.bundlePath (Declaration.merge texts) =
      (((plain compiler).stateAt s c fs .snapshotAfter).files, .ok ()) ∧
    ((plain compiler).stateAt s c fs .snapshotAfter).context.config = c ∧
    ((plain compiler).stateAt s c fs .snapshotAfter).context.before = some before ∧
    ((plain compiler).stateAt s c fs .snapshotAfter).context.declarations = chosen before c found ∧
    ((plain compiler).stateAt s c fs .snapshotAfter).context.bundle = some ⟨c.bundlePath, Declaration.merge texts⟩ := by
  obtain ⟨hs, mid, hrun, hstate⟩ := exists_run_stage next?_merge h
  obtain ⟨before, output, hb, ho, hconfig, hbefore⟩ := start_merge hs
  obtain ⟨found, texts, diagnostics, hl, hr, hw, hctx⟩ := run_merge_eq_ok hrun
  rw [inputs_eq_chosen hconfig hbefore] at hr hctx
  rw [hconfig] at hl hw hctx
  rw [hstate, hctx]
  exact ⟨before, found, texts, output, hb, ho, hl, hr, hw, hconfig, hbefore, rfl, rfl⟩

theorem start_prune (h : (plain compiler).Starts s c fs .prune) : ∃ before after found texts,
    Course compiler s c fs before after found texts ∧
    ((plain compiler).stateAt s c fs .prune).context.config = c ∧
    ((plain compiler).stateAt s c fs .prune).context.before = some before ∧
    ((plain compiler).stateAt s c fs .prune).context.after = some after ∧
    ((plain compiler).stateAt s c fs .prune).context.declarations = chosen before c found ∧
    ((plain compiler).stateAt s c fs .prune).context.bundle = some ⟨c.bundlePath, Declaration.merge texts⟩ := by
  obtain ⟨hs, mid, hrun, hstate⟩ := exists_run_stage next?_snapshotAfter h
  obtain ⟨before, found, texts, output, hb, ho, hl, hr, hw, hconfig, hbefore, hdecl, hbundle⟩ := start_snapshotAfter hs
  change (runSnapshotAfter s).run _ = _ at hrun
  rw [run_snapshotAfter, hconfig] at hrun
  split at hrun
  next after ha =>
    cases hrun
    have hfiles : merged compiler s c fs = ((plain compiler).stateAt s c fs .snapshotAfter).files := by
      rw [merged, hstate]
    rw [← hfiles] at hw ha
    rw [hstate]
    exact ⟨before, after, found, texts, ⟨hb, ⟨output, ho⟩, hl, hr, hw, ha⟩, hconfig, hbefore, rfl, hdecl, hbundle⟩
  next => cases hrun

theorem exists_success (h : (plain compiler).run s c fs = (.ok (), done)) :
    ∃ before after found texts, Success compiler s c fs done before after found texts := by
  obtain ⟨hs, hrun⟩ := run_plain_eq_ok h
  obtain ⟨before, after, found, texts, hcourse, hconfig, hb, ha, hdecl, hbundle⟩ := start_prune hs
  have hprune := run_prune (s := s) hb ha
  change (runPrune s).run _ = _ at hrun
  rw [hprune, hconfig] at hrun
  cases hrun
  exact ⟨before, after, found, texts, { hcourse with
    files_eq := rfl
    before_eq := hb
    after_eq := ha
    declarations_eq := hdecl
    bundle_eq := hbundle
    removals_eq := rfl }⟩

section Stages

variable {tree written : FileSystem} {output : String}
  (hb : (cleaned c fs).snapshotOrEmpty s c.outDir.path = .ok before)
  (ho : compiler c.inDir c.outDir (cleaned c fs) = (tree, .ok output))
  (hl : listDeclarations s tree c.outDir.path = .ok found)
  (hr : readAll s tree (chosen before c found) = .ok texts)
  (hw : tree.replace c.bundlePath (Declaration.merge texts) = (written, .ok ()))
  (ha : written.snapshot s c.outDir.path = .ok after)

theorem starts_snapshotBefore : (plain compiler).Starts s c fs .snapshotBefore :=
  starts_next_plain next?_clean starts_clean_plain (Prod.ext (run_clean _).1 rfl)

include hb ho in
theorem starts_merge : (plain compiler).Starts s c fs .merge := by
  have hbefore : (plain compiler).Starts s c fs .snapshotBefore := starts_snapshotBefore
  have hcompile : (plain compiler).Starts s c fs .compile := by
    obtain ⟨hfiles, hconfig⟩ := start_snapshotBefore hbefore
    have hrun := run_snapshotBefore s ((plain compiler).stateAt s c fs .snapshotBefore)
    rw [hfiles, hconfig, hb] at hrun
    exact starts_next_plain next?_snapshotBefore hbefore hrun
  obtain ⟨_, -, hfiles, hconfig, -⟩ := start_compile hcompile
  have hrun := run_compile compiler ((plain compiler).stateAt s c fs .compile)
  rw [hfiles, hconfig, ho] at hrun
  exact starts_next_plain next?_compile hcompile hrun

include hb ho hl hr in
theorem outcome_merge : ((runMerge s).run ((plain compiler).stateAt s c fs .merge)).1 =
    (tree.replace c.bundlePath (Declaration.merge texts)).2.mapError (.write c.bundlePath) := by
  obtain ⟨before', output', hb', ho', hconfig, hctx⟩ := start_merge (starts_merge hb ho)
  rw [hb] at hb'
  cases hb'
  rw [ho] at ho'
  obtain ⟨htree, -⟩ := Prod.mk.inj ho'
  rw [← hconfig, htree, compiled] at hl
  rw [← inputs_eq_chosen hconfig hctx, htree, compiled] at hr
  have hrun := run_merge_outcome hl hr
  rwa [hconfig, ← compiled, ← htree] at hrun

include hb ho hl hr hw in
theorem starts_snapshotAfter : (plain compiler).Starts s c fs .snapshotAfter := by
  have hrun := outcome_merge hb ho hl hr
  rw [hw] at hrun
  exact starts_next_plain next?_merge (starts_merge hb ho) (Prod.ext hrun rfl)

include hb ho hl hr hw ha in
theorem starts_prune : (plain compiler).Starts s c fs .prune := by
  have hafter := starts_snapshotAfter hb ho hl hr hw
  obtain ⟨before', found', texts', _, hb', ho', hl', hr', hw', hconfig, -⟩ := start_snapshotAfter hafter
  rw [hb] at hb'
  cases hb'
  rw [ho] at ho'
  obtain ⟨htree, -⟩ := Prod.mk.inj ho'
  rw [← htree, hl] at hl'
  cases hl'
  rw [← htree, hr] at hr'
  cases hr'
  rw [← htree, hw] at hw'
  obtain ⟨hwritten, -⟩ := Prod.mk.inj hw'
  have hrun := run_snapshotAfter s ((plain compiler).stateAt s c fs .snapshotAfter)
  rw [← hwritten, hconfig, ha] at hrun
  exact starts_next_plain next?_snapshotAfter hafter hrun

include hb ho hl hr hw ha in
theorem exists_run : ∃ done, (plain compiler).run s c fs = (.ok (), done) ∧
    Success compiler s c fs done before after found texts ∧
    compiled compiler s c fs = tree ∧ merged compiler s c fs = written := by
  have hprune := starts_prune hb ho hl hr hw ha
  obtain ⟨_, _, _, _, -, -, hb', ha', -⟩ := start_prune hprune
  have hrun := run_prune (s := s) hb' ha'
  have hdone := run_plain_of_prune hprune hrun
  obtain ⟨before', after', found', texts', hs⟩ := exists_success hdone
  obtain ⟨hrecorded, ⟨output', hemitted⟩, hlisted, hreadable, hwritten, hrevisited⟩ := hs.toCourse
  rw [hb] at hrecorded
  cases hrecorded
  rw [ho] at hemitted
  obtain ⟨htree, -⟩ := Prod.mk.inj hemitted
  rw [← htree, hl] at hlisted
  cases hlisted
  rw [← htree, hr] at hreadable
  cases hreadable
  rw [← htree, hw] at hwritten
  obtain ⟨hmerged, -⟩ := Prod.mk.inj hwritten
  rw [← hmerged, ha] at hrevisited
  cases hrevisited
  exact ⟨_, hdone, hs, htree.symm, hmerged.symm⟩

omit hb in
theorem run_of_unrecorded {err : IoError} (h : (cleaned c fs).snapshotOrEmpty s c.outDir.path = .error err) :
    ((plain compiler).run s c fs).1 = .error (.snapshot c.outDir.path err) := by
  have hbefore : (plain compiler).Starts s c fs .snapshotBefore := starts_snapshotBefore
  obtain ⟨hfiles, hconfig⟩ := start_snapshotBefore hbefore
  have hrun := run_snapshotBefore s ((plain compiler).stateAt s c fs .snapshotBefore)
  rw [hfiles, hconfig, h] at hrun
  exact congrArg Prod.fst (run_plain_of_error hbefore hrun)

include hb ho hl hr in
theorem run_of_unwritten {left : FileSystem} {err : IoError}
    (h : tree.replace c.bundlePath (Declaration.merge texts) = (left, .error err)) :
    ((plain compiler).run s c fs).1 = .error (.write c.bundlePath err) := by
  have hrun := outcome_merge hb ho hl hr
  rw [h] at hrun
  exact congrArg Prod.fst (run_plain_of_error (starts_merge hb ho) (Prod.ext hrun rfl))

end Stages

theorem Course.written_bundle (hc : Course compiler s c fs before after found texts) :
    accept c.bundlePath = .ok () ∧ ∃ prepared k mode, Grown (compiled compiler s c fs) prepared c.outDir ∧
      Settled (compiled compiler s c fs) prepared c.outDir (.ok ()) ∧ prepared.LeadsTo c.outDir k ∧
      Replaced prepared (merged compiler s c fs) (k ++ [c.bundleName]) (Declaration.merge texts) mode := by
  obtain ⟨hgrown, -⟩ := makeDirectories_path (compiled compiler s c fs) c.outDir
  rcases replace_path hc.written with ⟨_, h, -⟩ | ⟨-, ha, -, hs, k, hk, hr⟩
  · cases h
  · exact ⟨ha, _, k, _, hgrown, hs, hk, hr⟩

end DeclBundle.Pipeline
