import DeclBundle.Proofs.Pass.Run

namespace DeclBundle.Stage

open Pass

variable {s : Schedule} {compiler : Compiler} {st st' : State} {e : PassError}

def cleaned (c : Config) (fs : FileSystem) : FileSystem :=
  match stale? c with
  | none => fs
  | some path => (fs.remove path).1

def swept (path : Path) (removal : Removal) (c : Context) : Context :=
  let remarked := match removal.error? with
    | some e => c.note ⟨.warning, clean.name, "could not remove stale output: " ++ e.message, some path⟩
    | none => c
  { remarked with preClean := some removal }

theorem swept_config (path : Path) (removal : Removal) (c : Context) : (swept path removal c).config = c.config := by
  rw [swept]
  cases removal.error? <;> rfl

theorem run_clean_eq (st : State) : runClean.run st =
    match stale? st.context.config with
    | none => (.ok (), st)
    | some path => (.ok (), { st with
        files := (st.files.remove path).1
        context := swept path (st.files.remove path).2 st.context }) := by
  cases hp : stale? st.context.config with
  | none => simp [runClean, run_bind, hp]
  | some path =>
    cases hr : (st.files.remove path).2.error? <;> simp [runClean, run_bind, hp, hr, warn, swept]

theorem run_clean (st : State) : (runClean.run st).1 = .ok () ∧
    (runClean.run st).2.files = cleaned st.context.config st.files ∧
    (runClean.run st).2.context.config = st.context.config := by
  rw [run_clean_eq, cleaned]
  cases stale? st.context.config with
  | none => exact ⟨rfl, rfl, rfl⟩
  | some path => exact ⟨rfl, rfl, swept_config _ _ _⟩

theorem run_snapshotBefore (s : Schedule) (st : State) : (runSnapshotBefore s).run st =
    match st.files.snapshotOrEmpty s st.context.config.outDir.path with
    | .ok paths => (.ok (), { st with context := { st.context with before := some paths } })
    | .error err => (.error (.snapshot st.context.config.outDir.path err), st) := by
  cases h : st.files.snapshotOrEmpty s st.context.config.outDir.path <;>
    simp [runSnapshotBefore, run_bind, h]

theorem run_snapshotAfter (s : Schedule) (st : State) : (runSnapshotAfter s).run st =
    match st.files.snapshot s st.context.config.outDir.path with
    | .ok paths => (.ok (), { st with context := { st.context with after := some paths } })
    | .error err => (.error (.snapshot st.context.config.outDir.path err), st) := by
  cases h : st.files.snapshot s st.context.config.outDir.path <;>
    simp [runSnapshotAfter, run_bind, h]

theorem files_snapshotBefore (s : Schedule) (compiler : Compiler) (st : State) :
    ((Stage.run s compiler .snapshotBefore).run st).2.files = st.files := by
  rw [show Stage.run s compiler .snapshotBefore = runSnapshotBefore s from rfl, run_snapshotBefore]
  split <;> rfl

theorem files_snapshotAfter (s : Schedule) (compiler : Compiler) (st : State) :
    ((Stage.run s compiler .snapshotAfter).run st).2.files = st.files := by
  rw [show Stage.run s compiler .snapshotAfter = runSnapshotAfter s from rfl, run_snapshotAfter]
  split <;> rfl

theorem run_compile (compiler : Compiler) (st : State) : (runCompile compiler).run st =
    match compiler st.context.config.inDir st.context.config.outDir st.files with
    | (fs, .ok output) =>
      (.ok (), { st with files := fs, context := { st.context with compilerOutput := some output } })
    | (fs, .error err) => (.error err, { st with files := fs }) := by
  rcases h : compiler st.context.config.inDir st.context.config.outDir st.files with ⟨fs, _ | output⟩ <;>
    simp [runCompile, run_bind, run_onFiles, h]

theorem files_compiled (s : Schedule) (compiler : Compiler) (st : State) :
    ((Stage.run s compiler .compile).run st).2.files =
      (compiler st.context.config.inDir st.context.config.outDir st.files).1 := by
  rw [show Stage.run s compiler .compile = runCompile compiler from rfl, run_compile]
  split
  next h => rw [h]
  next h => rw [h]

def bundling (s : Schedule) (path : Path) (paths : List Path) : Pass Unit := do
  let texts ← orFail id (readAll s (← files) paths)
  let content := Declaration.merge texts
  onFiles (.write path) (·.replace path content)
  note ⟨.info, merge.name,
    "bundle written from " ++ toString paths.length ++ " declaration files", some path⟩
  updateContext fun c => { c with declarations := paths, bundle := some ⟨path, content⟩ }

def written (path : Path) (paths : List Path) (text : String) (c : Context) : Context :=
  { c.note ⟨.info, merge.name, "bundle written from " ++ toString paths.length ++ " declaration files", some path⟩ with
    declarations := paths
    bundle := some ⟨path, text⟩ }

theorem run_bundling (s : Schedule) (path : Path) (paths : List Path) (st : State) :
    (bundling s path paths).run st =
      match readAll s st.files paths with
      | .error err => (.error err, st)
      | .ok texts =>
        match st.files.replace path (Declaration.merge texts) with
        | (fs, .error err) => (.error (.write path err), { st with files := fs })
        | (fs, .ok _) => (.ok (), { st with
            files := fs
            context := written path paths (Declaration.merge texts) st.context }) := by
  cases hr : readAll s st.files paths with
  | error err => simp [bundling, run_bind, hr]
  | ok texts =>
    rcases hw : st.files.replace path (Declaration.merge texts) with ⟨fs, err | u⟩
    · simp [bundling, run_bind, run_onFiles, hr, hw]
    · simp only [bundling, run_bind, run_onFiles, run_files, run_orFail_ok, run_note, run_updateContext, hr, hw]
      rfl

def noInputs : Diagnostic :=
  ⟨.warning, merge.name, "no declaration files were emitted; the bundle is empty", none⟩

def listed (found : List Path) (st : State) : State :=
  if inputs st.context found = [] then { st with context := st.context.note noInputs } else st

theorem run_merge_listed (s : Schedule) (st : State) : (runMerge s).run st =
    match listDeclarations s st.files st.context.config.outDir.path with
    | .error err => (.error (.list st.context.config.outDir.path err), st)
    | .ok found => (bundling s st.context.config.bundlePath (inputs st.context found)).run (listed found st) := by
  have hrun : runMerge s = (do
      let c ← context
      let found ← orFail (.list c.config.outDir.path) (listDeclarations s (← files) c.config.outDir.path)
      if (inputs c found).isEmpty then do
        note noInputs
        bundling s c.config.bundlePath (inputs c found)
      else bundling s c.config.bundlePath (inputs c found)) := rfl
  cases hl : listDeclarations s st.files st.context.config.outDir.path with
  | error err => simp [hrun, run_bind, hl]
  | ok found =>
    by_cases he : inputs st.context found = []
    · simp [hrun, run_bind, hl, listed, he]
    · simp [hrun, run_bind, hl, listed, he]

theorem exists_listed_eq (found : List Path) (st : State) : ∃ diagnostics,
    listed found st = { st with context := { st.context with diagnostics := diagnostics } } := by
  rw [listed]
  split
  · exact ⟨_, rfl⟩
  · exact ⟨st.context.diagnostics, rfl⟩

theorem run_merge_eq_ok (h : (runMerge s).run st = (.ok (), st')) : ∃ found texts diagnostics,
    listDeclarations s st.files st.context.config.outDir.path = .ok found ∧
    readAll s st.files (inputs st.context found) = .ok texts ∧
    st.files.replace st.context.config.bundlePath (Declaration.merge texts) = (st'.files, .ok ()) ∧
    st'.context = { st.context with
      declarations := inputs st.context found
      bundle := some ⟨st.context.config.bundlePath, Declaration.merge texts⟩
      diagnostics := diagnostics } := by
  rw [run_merge_listed] at h
  split at h
  · cases h
  next found hl =>
    obtain ⟨noted, hnoted⟩ := exists_listed_eq found st
    rw [hnoted, run_bundling] at h
    split at h
    · cases h
    next texts hr =>
      split at h
      · cases h
      next fs u hw =>
        cases h
        exact ⟨found, texts, _, hl, hr, hw, rfl⟩

theorem run_merge_outcome {found : List Path} {texts : List String}
    (hl : listDeclarations s st.files st.context.config.outDir.path = .ok found)
    (hr : readAll s st.files (inputs st.context found) = .ok texts) :
    ((runMerge s).run st).1 = (st.files.replace st.context.config.bundlePath (Declaration.merge texts)).2.mapError
      (.write st.context.config.bundlePath) := by
  obtain ⟨noted, hnoted⟩ := exists_listed_eq found st
  have hbundling := run_bundling s st.context.config.bundlePath (inputs st.context found) (listed found st)
  rw [hnoted] at hbundling
  simp only [hr] at hbundling
  rw [run_merge_listed, hl]
  dsimp only
  rw [hnoted]
  refine (congrArg Prod.fst hbundling).trans ?_
  rcases st.files.replace st.context.config.bundlePath (Declaration.merge texts) with ⟨fs, err | u⟩
  · rfl
  · rfl

theorem run_merge_eq_error (h : (runMerge s).run st = (.error e, st')) : st'.files = st.files ∨
    ∃ text err, st.files.replace st.context.config.bundlePath text = (st'.files, .error err) := by
  rw [run_merge_listed] at h
  split at h
  · cases h
    exact .inl rfl
  next found _ =>
    obtain ⟨noted, hnoted⟩ := exists_listed_eq found st
    rw [hnoted, run_bundling] at h
    split at h
    · cases h
      exact .inl rfl
    · split at h
      next texts _ fs err hw =>
        cases h
        exact .inr ⟨_, err, hw⟩
      · cases h

def remark? (r : Path × Removal) : Option Diagnostic :=
  r.2.error?.map fun e => ⟨.warning, prune.name, "could not remove: " ++ e.message, some r.1⟩

def remarked (ds : List Diagnostic) (st : State) : State :=
  { st with context := { st.context with diagnostics := st.context.diagnostics ++ ds } }

theorem run_remarks {warnOf : Path × Removal → Pass Unit}
    (h : ∀ r st, (warnOf r).run st = (.ok (), remarked (remark? r).toList st)) (removals : List (Path × Removal))
    (st : State) : (removals.forM warnOf).run st = (.ok (), remarked (removals.filterMap remark?) st) := by
  induction removals generalizing st with
  | nil => simp [remarked]
  | cons r rest ih =>
    apply (run_bind_of_ok (h r st)).trans
    rw [ih]
    cases hr : remark? r <;> simp [remarked, hr]

def doomed (s : Schedule) (before after : PathSet) (bundle : Path) : List Path :=
  arrange (PathSet.deletionSet before after bundle).roots.toList
    (s.removals (PathSet.deletionSet before after bundle).roots.size)

def pruned (removals : List (Path × Removal)) (c : Context) : Context :=
  { c with
    removals := removals
    diagnostics := c.diagnostics ++ removals.filterMap remark? }

theorem run_prune {before after : PathSet} (hb : st.context.before = some before)
    (ha : st.context.after = some after) : (runPrune s).run st = (.ok (), { st with
      files := (removeAll (doomed s before after st.context.config.bundlePath) st.files).1
      context := pruned (sortRemovals (removeAll (doomed s before after st.context.config.bundlePath) st.files).2)
        st.context }) := by
  rw [runPrune, run_bind_of_ok (run_context st), run_bind_of_ok (run_updateContext _ st)]
  simp only [hb, ha]
  rw [run_bind_of_ok (run_files _), run_bind_of_ok (run_setFiles _ _)]
  refine (run_bind_of_ok (run_remarks ?_ _ _)).trans ?_
  · rintro ⟨path, removal⟩ st
    cases hr : removal.error? <;> simp [remark?, remarked, hr, warn, Context.note]
  · rw [run_updateContext, pruned, hb, ha]
    rfl

end DeclBundle.Stage
