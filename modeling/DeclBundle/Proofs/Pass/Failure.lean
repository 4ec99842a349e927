import DeclBundle.Proofs.Pass.Course
import DeclBundle.Proofs.Pass.Stages

namespace DeclBundle.Stage

open Pass

variable {s : Schedule} {compiler : Compiler} {stage : Stage} {st st' : State} {found : List Path} {e : PassError}

theorem run_merge_of_unlisted {err : IoError} (st : State)
    (h : listDeclarations s st.files st.context.config.outDir.path = .error err) :
    (runMerge s).run st = (.error (.list st.context.config.outDir.path err), st) := by
  rw [run_merge_listed, h]

theorem run_merge_of_listed (st : State)
    (h : listDeclarations s st.files st.context.config.outDir.path = .ok found) :
    (runMerge s).run st =
      (bundling s st.context.config.bundlePath (inputs st.context found)).run (listed found st) := by
  rw [run_merge_listed, h]

theorem context_bundling_of_error {path : Path} {paths : List Path}
    (h : (bundling s path paths).run st = (.error e, st')) : st'.context = st.context := by
  rw [run_bundling] at h
  split at h
  · cases h
    rfl
  · split at h
    · cases h
      rfl
    · cases h

theorem note_ne (c : Context) (d : Diagnostic) : c.note d ≠ c := by
  intro h
  have hlength := congrArg (fun c => c.diagnostics.length) h
  simp [Context.note] at hlength

theorem context_listed_eq_iff : (listed found st).context = st.context ↔ inputs st.context found ≠ [] := by
  rw [listed]
  split
  next he => simp [he, note_ne]
  next he => simp [he]

theorem context_merge_of_error (h : (runMerge s).run st = (.error e, st')) :
    (st'.context = st.context ↔
      ∀ found, listDeclarations s st.files st.context.config.outDir.path = .ok found →
        inputs st.context found ≠ []) ∧
    ∃ diagnostics, st'.context = { st.context with diagnostics := diagnostics } := by
  rw [run_merge_listed] at h
  split at h
  next err hl =>
    cases h
    exact ⟨by simp [hl], st.context.diagnostics, rfl⟩
  next found hl =>
    rw [context_bundling_of_error h, context_listed_eq_iff]
    refine ⟨by simp [hl], ?_⟩
    obtain ⟨noted, hnoted⟩ := exists_listed_eq found st
    exact ⟨noted, by rw [hnoted]⟩

def unsnapped (c : Context) : Context :=
  { c with before := none, after := none }

theorem unsnapped_eq_iff {c : Context} : unsnapped c = c ↔ c.before = none ∧ c.after = none := by
  constructor
  · intro h
    exact ⟨(congrArg Context.before h).symm, (congrArg Context.after h).symm⟩
  · rintro ⟨hb, ha⟩
    cases c
    cases hb
    cases ha
    rfl

theorem run_prune_of_missing (hnone : st.context.before = none ∨ st.context.after = none) : (runPrune s).run st =
    (.error (.other "prune requires both directory snapshots"), { st with context := unsnapped st.context }) := by
  -- the snapshots are dropped before the stage asks whether it has both
  rw [runPrune, run_bind_of_ok (run_context st), run_bind_of_ok (run_updateContext _ st)]
  rcases hnone with hnone | hnone
  · simp only [hnone]
    rfl
  · cases hb : st.context.before <;> (simp only [hnone]; rfl)

theorem context_prune_of_error (h : (runPrune s).run st = (.error e, st')) : st'.context = unsnapped st.context := by
  cases hb : st.context.before with
  | none =>
    rw [run_prune_of_missing (.inl hb)] at h
    cases h
    rfl
  | some before =>
    cases ha : st.context.after with
    | none =>
      rw [run_prune_of_missing (.inr ha)] at h
      cases h
      rfl
    | some after =>
      rw [run_prune hb ha] at h
      cases h

theorem context_of_error (hm : stage ≠ .merge) (hp : stage ≠ .prune)
    (h : (stage.run s compiler).run st = (.error e, st')) : st'.context = st.context := by
  cases stage with
  | clean =>
    have hok := (run_clean st).1
    rw [show runClean.run st = _ from h] at hok
    cases hok
  | snapshotBefore =>
    have hrun : (runSnapshotBefore s).run st = _ := h
    rw [run_snapshotBefore] at hrun
    split at hrun
    · cases hrun
    · cases hrun
      rfl
  | compile =>
    have hrun : (runCompile compiler).run st = _ := h
    rw [run_compile] at hrun
    split at hrun
    · cases hrun
    · cases hrun
      rfl
  | snapshotAfter =>
    have hrun : (runSnapshotAfter s).run st = _ := h
    rw [run_snapshotAfter] at hrun
    split at hrun
    · cases hrun
    · cases hrun
      rfl
  | merge => exact absurd rfl hm
  | prune => exact absurd rfl hp

/-- A stage that fails leaves the context as it was if and only if it is no merge that has found
nothing to merge and no removal that has one of its two snapshots. In no case does it touch more
than the snapshots and the diagnostics. -/
theorem run_error_context_iff (h : (stage.run s compiler).run st = (.error e, st')) :
    (st'.context = st.context ↔
      (stage = .merge → ∀ found, listDeclarations s st.files st.context.config.outDir.path = .ok found →
        inputs st.context found ≠ []) ∧
      (stage = .prune → st.context.before = none ∧ st.context.after = none)) ∧
    ∃ before after diagnostics,
      st'.context = { st.context with before := before, after := after, diagnostics := diagnostics } := by
  by_cases hm : stage = .merge
  · subst hm
    obtain ⟨hiff, diagnostics, hcontext⟩ := context_merge_of_error (show (runMerge s).run st = _ from h)
    exact ⟨by simpa using hiff, _, _, diagnostics, hcontext⟩
  · by_cases hp : stage = .prune
    · subst hp
      have hcontext := context_prune_of_error (show (runPrune s).run st = _ from h)
      refine ⟨?_, none, none, _, hcontext⟩
      rw [hcontext, unsnapped_eq_iff]
      simp
    · have hcontext := context_of_error hm hp h
      exact ⟨by simp [hcontext, hm, hp], _, _, _, hcontext⟩

namespace Sample

open Pipeline.Sample

def blocked : State :=
  ⟨((FileSystem.empty.put [out] (.directory 0o755)).put [out, types] (.directory 0o755)).put [out, a]
    (.file "export type A = 1".toUTF8 0o644), .new config, []⟩

def halfway : State :=
  ⟨.empty, { Context.new config with before := some .empty }, []⟩

end Sample

theorem run_error_context_sample : ∃ e st', (Stage.run .inOrder Pipeline.Sample.emit .merge).run Sample.blocked =
    (.error e, st') ∧ st'.context = Sample.blocked.context := by
  have hfails : ((Stage.run .inOrder Pipeline.Sample.emit .merge).run Sample.blocked).1.toBool = false := by
    decide +kernel
  have hlist : (listDeclarations .inOrder Sample.blocked.files Sample.blocked.context.config.outDir.path).toOption =
      some [Location.path [Pipeline.Sample.out, Pipeline.Sample.a]] := by
    decide +kernel
  obtain ⟨e, he⟩ := exists_eq_error_of_toBool hfails
  refine ⟨e, _, he, (run_error_context_iff he).1.2 ⟨?_, by simp⟩⟩
  intro _ found hfound
  rw [hfound] at hlist
  cases hlist
  decide +kernel

theorem not_forall_error_keeps_context : ¬∀ (s : Schedule) (compiler : Compiler) (stage : Stage) (st st' : State)
    (e : PassError), (stage.run s compiler).run st = (.error e, st') → st'.context = st.context := by
  intro h
  have hkept := h .inOrder Pipeline.Sample.emit .prune Sample.halfway _ _ rfl
  have hbefore := congrArg (fun c => c.before.isSome) hkept
  cases hbefore

end DeclBundle.Stage
