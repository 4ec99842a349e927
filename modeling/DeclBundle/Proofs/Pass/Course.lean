import DeclBundle.Proofs.Pass.Run

/-!
The course of a pass: the state in which each stage starts. A stage starts when every stage before
it and every plugin called until then has succeeded, and a pass that does not come to a stage ends
in the state that the last thing it did has left.
-/

namespace DeclBundle

def Stage.next? : Stage → Option Stage
  | clean => some snapshotBefore
  | snapshotBefore => some compile
  | compile => some merge
  | merge => some snapshotAfter
  | snapshotAfter => some prune
  | prune => none

namespace Stage

theorem next?_clean : clean.next? = some snapshotBefore := rfl

theorem next?_snapshotBefore : snapshotBefore.next? = some compile := rfl

theorem next?_compile : compile.next? = some merge := rfl

theorem next?_merge : merge.next? = some snapshotAfter := rfl

theorem next?_snapshotAfter : snapshotAfter.next? = some prune := rfl

end Stage

namespace Pipeline

open Pass

variable {p : Pipeline} {s : Schedule} {c : Config} {fs : FileSystem} {stage next : Stage} {st final : State}
  {e : PassError}

def enter (plugins : List Plugin) (phase : String) : Pass Unit :=
  plugins.forM fun plugin => call (.before plugin.name phase) (plugin.before phase)

def leave (plugins : List Plugin) (phase : String) : Pass Unit :=
  plugins.forM fun plugin => call (.after plugin.name phase) (plugin.after phase)

def announce (p : Pipeline) (stage : Stage) : Pass Unit := do
  enter p.plugins stage.name
  modify fun st => { st with calls := st.calls ++ [.phase stage.name] }

def reach (p : Pipeline) (s : Schedule) (stage : Stage) : Pass Unit := do
  (Stage.all.takeWhile (· ≠ stage)).forM fun earlier =>
    runPhase p.plugins ⟨earlier.name, earlier.run s p.compiler⟩
  p.announce stage

theorem runPhase_eq (p : Pipeline) (s : Schedule) (stage : Stage) :
    runPhase p.plugins ⟨stage.name, stage.run s p.compiler⟩ = (do
      p.announce stage
      stage.run s p.compiler
      leave p.plugins stage.name) := by
  simp [runPhase, announce, enter, leave, call]

theorem reach_clean (p : Pipeline) (s : Schedule) : p.reach s .clean = p.announce .clean := by
  simp [reach, Stage.all]

theorem reach_next (h : stage.next? = some next) : p.reach s next = (do
    p.reach s stage
    stage.run s p.compiler
    leave p.plugins stage.name
    p.announce next) := by
  cases stage <;> cases h <;> simp [reach, Stage.all, runPhase_eq]

theorem pass_eq (p : Pipeline) (s : Schedule) : p.pass s = (do
    p.reach s .prune
    Stage.prune.run s p.compiler
    leave p.plugins Stage.prune.name
    p.phases.forM (runPhase p.plugins)) := by
  simp [pass, stages, reach, Stage.all, runPhase_eq]

/-- The state in which a stage starts, or in which the pass has ended before. -/
@[irreducible]
def stateAt (p : Pipeline) (s : Schedule) (c : Config) (fs : FileSystem) (stage : Stage) : State :=
  ((p.reach s stage).run ⟨fs, .new c, []⟩).2

def Starts (p : Pipeline) (s : Schedule) (c : Config) (fs : FileSystem) (stage : Stage) : Prop :=
  ((p.reach s stage).run ⟨fs, .new c, []⟩).1 = .ok ()

instance (p : Pipeline) (s : Schedule) (c : Config) (fs : FileSystem) (stage : Stage) :
    Decidable (p.Starts s c fs stage) :=
  decidable_of_iff (((p.reach s stage).run ⟨fs, .new c, []⟩).1.toBool = true) (by
    rw [Starts]
    cases ((p.reach s stage).run ⟨fs, .new c, []⟩).1 <;> simp [Except.toBool])

theorem run_reach (h : p.Starts s c fs stage) :
    (p.reach s stage).run ⟨fs, .new c, []⟩ = (.ok (), p.stateAt s c fs stage) :=
  Prod.ext h (by rw [stateAt])

theorem exists_run_reach (h : ¬p.Starts s c fs stage) :
    ∃ e, (p.reach s stage).run ⟨fs, .new c, []⟩ = (.error e, p.stateAt s c fs stage) := by
  cases hr : ((p.reach s stage).run ⟨fs, .new c, []⟩).1 with
  | ok u => exact absurd hr h
  | error e => exact ⟨e, Prod.ext hr (by rw [stateAt])⟩

def proceed (p : Pipeline) (s : Schedule) (stage next : Stage) : Pass Unit := do
  stage.run s p.compiler
  leave p.plugins stage.name
  p.announce next

theorem stateAt_next (h : stage.next? = some next) (hs : p.Starts s c fs stage) :
    p.stateAt s c fs next = ((p.proceed s stage next).run (p.stateAt s c fs stage)).2 := by
  rw [stateAt, reach_next h, run_bind_of_ok (run_reach hs)]
  rfl

theorem starts_next_iff (h : stage.next? = some next) : p.Starts s c fs next ↔
    p.Starts s c fs stage ∧ ((p.proceed s stage next).run (p.stateAt s c fs stage)).1 = .ok () := by
  by_cases hs : p.Starts s c fs stage
  · rw [Starts, reach_next h, run_bind_of_ok (run_reach hs)]
    exact (and_iff_right hs).symm
  · obtain ⟨e, he⟩ := exists_run_reach hs
    rw [Starts, reach_next h, run_bind_of_error he]
    simp [hs]

theorem stateAt_next_of_not_starts (h : stage.next? = some next) (hs : ¬p.Starts s c fs stage) :
    p.stateAt s c fs next = p.stateAt s c fs stage := by
  obtain ⟨e, he⟩ := exists_run_reach hs
  rw [stateAt, reach_next h, run_bind_of_error he]

theorem run_of_not_starts (h : ¬p.Starts s c fs .prune) :
    ∃ e, p.run s c fs = (.error e, p.stateAt s c fs .prune) := by
  obtain ⟨e, he⟩ := exists_run_reach h
  exact ⟨e, by rw [run, pass_eq, run_bind_of_error he]⟩

theorem run_reach_of_error (h : stage.next? = some next) (hr : (p.reach s stage).run st = (.error e, final)) :
    (p.reach s next).run st = (.error e, final) := by
  rw [reach_next h, run_bind_of_error hr]

theorem run_of_reach_error (hr : (p.reach s stage).run ⟨fs, .new c, []⟩ = (.error e, final)) :
    p.run s c fs = (.error e, final) := by
  have hprune : (p.reach s .prune).run ⟨fs, .new c, []⟩ = (.error e, final) := by
    have hafter (h : (p.reach s .snapshotAfter).run ⟨fs, .new c, []⟩ = (.error e, final)) :=
      run_reach_of_error Stage.next?_snapshotAfter h
    have hmerge (h : (p.reach s .merge).run ⟨fs, .new c, []⟩ = (.error e, final)) :=
      hafter (run_reach_of_error Stage.next?_merge h)
    have hcompile (h : (p.reach s .compile).run ⟨fs, .new c, []⟩ = (.error e, final)) :=
      hmerge (run_reach_of_error Stage.next?_compile h)
    have hbefore (h : (p.reach s .snapshotBefore).run ⟨fs, .new c, []⟩ = (.error e, final)) :=
      hcompile (run_reach_of_error Stage.next?_snapshotBefore h)
    cases stage with
    | clean => exact hbefore (run_reach_of_error Stage.next?_clean hr)
    | snapshotBefore => exact hbefore hr
    | compile => exact hcompile hr
    | merge => exact hmerge hr
    | snapshotAfter => exact hafter hr
    | prune => exact hr
  rw [run, pass_eq, run_bind_of_error hprune]

section Plain

variable {compiler : Compiler}

theorem stateAt_clean_plain : (plain compiler).stateAt s c fs .clean = ⟨fs, .new c, [.phase Stage.clean.name]⟩ := by
  rw [stateAt, reach_clean]
  rfl

theorem run_proceed_plain : ((plain compiler).proceed s stage next).run st = (.ok (), final) ↔
    ∃ mid, (stage.run s compiler).run st = (.ok (), mid) ∧
      final = { mid with calls := mid.calls ++ [.phase next.name] } := by
  have hrest : (do leave (plain compiler).plugins stage.name; (plain compiler).announce next : Pass Unit) =
      modify fun st => { st with calls := st.calls ++ [.phase next.name] } := by
    simp [leave, announce, enter, plain]
  rw [proceed, hrest, run_bind_eq_ok]
  constructor
  · rintro ⟨⟨⟩, mid, hmid, hf⟩
    cases hf
    exact ⟨mid, hmid, rfl⟩
  · rintro ⟨mid, hmid, rfl⟩
    exact ⟨(), mid, hmid, rfl⟩

theorem run_plain_eq_ok (h : (plain compiler).run s c fs = (.ok (), final)) :
    (plain compiler).Starts s c fs .prune ∧
      (Stage.prune.run s compiler).run ((plain compiler).stateAt s c fs .prune) = (.ok (), final) := by
  rw [run, pass_eq, run_bind_eq_ok] at h
  obtain ⟨⟨⟩, mid, hreach, h⟩ := h
  have hmid : (plain compiler).stateAt s c fs .prune = mid := by rw [stateAt, hreach]
  refine ⟨by rw [Starts, hreach], ?_⟩
  rw [hmid]
  simpa [leave, plain] using h

theorem run_plain_of_prune (hs : (plain compiler).Starts s c fs .prune)
    (h : (Stage.prune.run s compiler).run ((plain compiler).stateAt s c fs .prune) = (.ok (), final)) :
    (plain compiler).run s c fs = (.ok (), final) := by
  change (Stage.prune.run s (plain compiler).compiler).run _ = _ at h
  rw [run, pass_eq, run_bind_of_ok (run_reach hs), run_bind_of_ok h]
  rfl

theorem run_plain_of_error (hs : (plain compiler).Starts s c fs stage)
    (h : (stage.run s compiler).run ((plain compiler).stateAt s c fs stage) = (.error e, final)) :
    (plain compiler).run s c fs = (.error e, final) := by
  cases hnext : stage.next? with
  | none =>
    have hprune : stage = .prune := by cases stage <;> first | rfl | cases hnext
    subst hprune
    change (Stage.prune.run s (plain compiler).compiler).run _ = _ at h
    rw [run, pass_eq, run_bind_of_ok (run_reach hs), run_bind_of_error h]
  | some next =>
    change (stage.run s (plain compiler).compiler).run _ = _ at h
    have hreach : ((plain compiler).reach s next).run ⟨fs, .new c, []⟩ = (.error e, final) := by
      rw [reach_next hnext, run_bind_of_ok (run_reach hs), run_bind_of_error h]
    exact run_of_reach_error hreach

theorem starts_clean_plain : (plain compiler).Starts s c fs .clean := by
  rw [Starts, reach_clean]
  rfl

theorem starts_next_plain {mid : State} (h : stage.next? = some next) (hs : (plain compiler).Starts s c fs stage)
    (hrun : (stage.run s compiler).run ((plain compiler).stateAt s c fs stage) = (.ok (), mid)) :
    (plain compiler).Starts s c fs next :=
  (starts_next_iff h).2 ⟨hs, by rw [run_proceed_plain.2 ⟨mid, hrun, rfl⟩]⟩

theorem exists_run_stage (h : stage.next? = some next) (hs : (plain compiler).Starts s c fs next) :
    (plain compiler).Starts s c fs stage ∧
      ∃ mid, (stage.run s compiler).run ((plain compiler).stateAt s c fs stage) = (.ok (), mid) ∧
        (plain compiler).stateAt s c fs next = { mid with calls := mid.calls ++ [.phase next.name] } := by
  obtain ⟨hstage, hok⟩ := (starts_next_iff h).1 hs
  refine ⟨hstage, ?_⟩
  rw [stateAt_next h hstage]
  exact run_proceed_plain.1 (Prod.ext hok rfl)

end Plain

namespace Sample

def src : Name := ⟨"src", by decide⟩
def out : Name := ⟨"out", by decide⟩
def lib : Name := ⟨"lib", by decide⟩
def a : Name := ⟨"a.d.ts", by decide⟩
def types : Name := ⟨"types.d.ts", by decide⟩

def config : Config :=
  ⟨[src], [out], types, .none, .default⟩

theorem new_eq : Config.new [] ⟨⟨"src"⟩, ⟨"out"⟩, none⟩ .none .default = .ok config := by
  rfl

def stale : FileSystem :=
  (FileSystem.empty.put [out] (.directory 0o755)).put [out, types] (.file "export type Old = 0".toUTF8 0o644)

def emit : Compiler := fun _ outDir fs =>
  let fs := (fs.put outDir (.directory 0o755)).put (outDir ++ [lib]) (.directory 0o755)
  let fs := fs.put (outDir ++ [lib, a]) (.file "import x\nexport type A = 1".toUTF8 0o644)
  (fs.put (outDir ++ [types]) (.file "export type B = 2".toUTF8 0o644), .ok "")

theorem run_stale : (plain emit).run .inOrder config stale = (.ok (), ((plain emit).run .inOrder config stale).2) := by
  apply eq_ok_of_toBool
  decide +kernel

end Sample

end Pipeline

end DeclBundle
