import DeclBundle.Pass.Pipeline

namespace DeclBundle.Pass

variable {α β ε : Type} {x : Pass α} {f : α → Pass β} {a : α} {b : β} {e : PassError} {st st' : State}

@[simp] theorem run_pure (a : α) (st : State) : (pure a : Pass α).run st = (.ok a, st) := rfl

theorem run_bind (x : Pass α) (f : α → Pass β) (st : State) : (x >>= f).run st =
    match x.run st with
    | (.ok a, mid) => (f a).run mid
    | (.error e, mid) => (.error e, mid) := by
  change (ExceptT.bind x f).run st = _
  simp only [ExceptT.bind, ExceptT.run, ExceptT.mk, bind, StateT.bind]
  cases hx : x st with
  | mk r mid => cases r <;> rfl

theorem run_bind_of_ok {mid : State} (h : x.run st = (.ok a, mid)) : (x >>= f).run st = (f a).run mid := by
  rw [run_bind, h]

theorem run_bind_of_error (h : x.run st = (.error e, st')) : (x >>= f).run st = (.error e, st') := by
  rw [run_bind, h]

theorem run_bind_eq_ok : (x >>= f).run st = (.ok b, st') ↔
    ∃ a mid, x.run st = (.ok a, mid) ∧ (f a).run mid = (.ok b, st') := by
  constructor
  · intro h
    rw [run_bind] at h
    split at h
    next a mid hx => exact ⟨a, mid, hx, h⟩
    next e mid hx => cases h
  · rintro ⟨a, mid, hx, hf⟩
    rw [run_bind_of_ok hx, hf]

@[simp] theorem run_files (st : State) : files.run st = (.ok st.files, st) := rfl

@[simp] theorem run_setFiles (fs : FileSystem) (st : State) :
    (setFiles fs).run st = (.ok (), { st with files := fs }) := rfl

@[simp] theorem run_context (st : State) : context.run st = (.ok st.context, st) := rfl

@[simp] theorem run_config (st : State) : config.run st = (.ok st.context.config, st) := rfl

@[simp] theorem run_updateContext (g : Context → Context) (st : State) :
    (updateContext g).run st = (.ok (), { st with context := g st.context }) := rfl

@[simp] theorem run_note (d : Diagnostic) (st : State) :
    (note d).run st = (.ok (), { st with context := st.context.note d }) := rfl

@[simp] theorem run_orFail_ok (describe : ε → PassError) (a : α) (st : State) :
    (orFail describe (.ok a)).run st = (.ok a, st) := rfl

@[simp] theorem run_orFail_error (describe : ε → PassError) (err : ε) (st : State) :
    (orFail describe (.error err : Except ε α)).run st = (.error (describe err), st) := rfl

theorem run_onFiles (describe : ε → PassError) (operate : FileSystem → FileSystem × Except ε α) (st : State) :
    (onFiles describe operate).run st =
      (orFail describe (operate st.files).2).run { st with files := (operate st.files).1 } := rfl

theorem eq_ok_of_toBool {r : Except PassError Unit × State} (h : r.1.toBool = true) : r = (.ok (), r.2) := by
  obtain ⟨e | u, st⟩ := r
  · cases h
  · rfl

theorem exists_eq_error_of_toBool {r : Except PassError Unit × State} (h : r.1.toBool = false) :
    ∃ e, r = (.error e, r.2) := by
  obtain ⟨e | u, st⟩ := r
  · exact ⟨e, rfl⟩
  · cases h

end DeclBundle.Pass
