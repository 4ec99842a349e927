import DeclBundle.Proofs.Pass.Abort
import DeclBundle.Proofs.Pass.Failure

namespace DeclBundle

namespace Pass

def KeepsCalls (x : Pass Unit) : Prop :=
  ∀ st, (x.run st).2.calls = st.calls

variable {x : Pass Unit} {f : Unit → Pass Unit} {e : PassError} {st final : State}

theorem run_bind_eq_error : (x >>= f).run st = (.error e, final) ↔
    x.run st = (.error e, final) ∨ ∃ mid, x.run st = (.ok (), mid) ∧ (f ()).run mid = (.error e, final) := by
  rw [run_bind]
  rcases x.run st with ⟨err | u, mid⟩
  · constructor
    · exact .inl
    · rintro (hfirst | ⟨_, hfirst, -⟩)
      · exact hfirst
      · cases hfirst
  · constructor
    · intro h
      exact .inr ⟨mid, rfl, h⟩
    · rintro (hfirst | ⟨_, hfirst, hlater⟩)
      · cases hfirst
      · cases hfirst
        exact hlater

end Pass

def Plugin.KeepsCalls (plugin : Plugin) : Prop :=
  ∀ phase, (plugin.before phase).KeepsCalls ∧ (plugin.after phase).KeepsCalls

namespace Stage

open Pass

theorem calls_bundling (s : Schedule) (path : Path) (paths : List Path) : (bundling s path paths).KeepsCalls := by
  intro st
  rw [run_bundling]
  split
  · rfl
  · split <;> rfl

theorem keepsCalls_run (s : Schedule) (compiler : Compiler) (stage : Stage) :
    (stage.run s compiler).KeepsCalls := by
  intro st
  -- what the compiler does is to the tree
  cases stage with
  | clean =>
    rw [Stage.run]
    cases hp : stale? st.context.config with
    | none => simp [runClean, run_bind, hp]
    | some path => cases hr : (st.files.remove path).2.error? <;> simp [runClean, run_bind, hp, hr, warn]
  | snapshotBefore =>
    rw [Stage.run, run_snapshotBefore]
    split <;> rfl
  | compile =>
    rw [Stage.run, run_compile]
    split <;> rfl
  | merge =>
    rw [Stage.run, run_merge_listed]
    split
    next => rfl
    next found _ =>
      rw [calls_bundling s _ _ (listed found st), listed]
      split <;> rfl
  | snapshotAfter =>
    rw [Stage.run, run_snapshotAfter]
    split <;> rfl
  | prune =>
    rw [Stage.run]
    cases hb : st.context.before with
    | none => rw [run_prune_of_missing (.inl hb)]
    | some before =>
      cases ha : st.context.after with
      | none => rw [run_prune_of_missing (.inr ha)]
      | some after =>
        rw [run_prune hb ha]

end Stage

namespace Pipeline

open Pass Stage

variable {p : Pipeline} {s : Schedule} {st final : State} {e : PassError}

structure Action where
  call : Call
  body : Pass Unit

def Action.perform (a : Action) : Pass Unit :=
  Pipeline.call a.call a.body

def around (plugins : List Plugin) (phase : Phase) : List Action :=
  plugins.map (fun plugin => ⟨.before plugin.name phase.name, plugin.before phase.name⟩) ++
    ⟨.phase phase.name, phase.run⟩ ::
    plugins.map (fun plugin => ⟨.after plugin.name phase.name, plugin.after phase.name⟩)

def plan (p : Pipeline) (s : Schedule) : List Action :=
  (stages s p.compiler ++ p.phases).flatMap (around p.plugins)

def callsAround (plugins : List Plugin) (phase : String) : List Call :=
  plugins.map (fun plugin => .before plugin.name phase) ++
    .phase phase :: plugins.map (fun plugin => .after plugin.name phase)

theorem calls_around (plugins : List Plugin) (phase : Phase) :
    (around plugins phase).map Action.call = callsAround plugins phase.name := by
  simp [around, callsAround, Function.comp_def]

theorem calls_plan (p : Pipeline) (s : Schedule) : (p.plan s).map Action.call =
    (["clean", "snapshot-before", "compile", "merge", "snapshot-after", "prune"] ++
      p.phases.map Phase.name).flatMap (callsAround p.plugins) := by
  have hnames : ["clean", "snapshot-before", "compile", "merge", "snapshot-after", "prune"] =
      (stages s p.compiler).map Phase.name := rfl
  rw [hnames, ← List.map_append, List.flatMap_map, plan, List.map_flatMap]
  simp only [calls_around]

def carryOut (actions : List Action) : Pass Unit :=
  forM actions Action.perform

theorem carryOut_cons (a : Action) (rest : List Action) :
    carryOut (a :: rest) = (do a.perform; carryOut rest) :=
  List.forM_cons

theorem carryOut_flatMap {α : Type} (f : α → List Action) (l : List α) :
    carryOut (l.flatMap f) = l.forM fun a => carryOut (f a) := by
  induction l with
  | nil => rfl
  | cons a l ih =>
    rw [List.flatMap_cons, carryOut, List.forM_append]
    exact congrArg (fun later : Pass Unit => do carryOut (f a); later) ih

theorem runPhase_eq_carryOut (plugins : List Plugin) (phase : Phase) :
    runPhase plugins phase = carryOut (around plugins phase) := by
  rw [carryOut, around, List.forM_append, List.forM_cons, List.forM_map, List.forM_map]
  rfl

theorem pass_eq_carryOut (p : Pipeline) (s : Schedule) : p.pass s = carryOut (p.plan s) := by
  rw [plan, carryOut_flatMap, pass]
  congr 1
  funext phase
  exact runPhase_eq_carryOut _ _

/-- Actions that all succeed, each begun in the state that the one before has left. -/
inductive Succeeds : List Action → State → State → Prop
  | nil (st : State) : Succeeds [] st st
  | cons {a : Action} {rest : List Action} {st mid final : State} (first : a.perform.run st = (.ok (), mid))
      (later : Succeeds rest mid final) : Succeeds (a :: rest) st final

def FailsAfter (made : List Action) (a : Action) (st : State) (e : PassError) (final : State) : Prop :=
  ∃ mid, Succeeds made st mid ∧ a.perform.run mid = (.error e, final)

theorem carryOut_eq_ok_iff {actions : List Action} :
    (carryOut actions).run st = (.ok (), final) ↔ Succeeds actions st final := by
  induction actions generalizing st with
  | nil =>
    constructor
    · intro h
      cases h
      exact .nil _
    · rintro ⟨⟩
      rfl
  | cons a rest ih =>
    rw [carryOut_cons, run_bind_eq_ok]
    constructor
    · rintro ⟨⟨⟩, mid, hfirst, hlater⟩
      exact .cons hfirst (ih.1 hlater)
    · rintro (_ | ⟨hfirst, hlater⟩)
      exact ⟨(), _, hfirst, ih.2 hlater⟩

theorem carryOut_eq_error_iff {actions : List Action} : (carryOut actions).run st = (.error e, final) ↔
    ∃ made a rest, actions = made ++ a :: rest ∧ FailsAfter made a st e final := by
  induction actions generalizing st with
  | nil =>
    constructor
    · rintro ⟨⟩
    · rintro ⟨made, a, rest, hsplit, -⟩
      simp at hsplit
  | cons b later ih =>
    rw [carryOut_cons, run_bind_eq_error]
    constructor
    · rintro (hfirst | ⟨mid, hfirst, hlater⟩)
      · exact ⟨[], b, later, rfl, st, .nil st, hfirst⟩
      · obtain ⟨made, a, rest, rfl, mid', hmade, hfails⟩ := ih.1 hlater
        exact ⟨b :: made, a, rest, rfl, mid', .cons hfirst hmade, hfails⟩
    · rintro ⟨made, a, rest, hsplit, mid', hmade, hfails⟩
      cases hmade with
      | nil =>
        cases hsplit
        exact .inl hfails
      | cons hfirst hmade =>
        cases hsplit
        exact .inr ⟨_, hfirst, ih.2 ⟨_, a, rest, rfl, mid', hmade, hfails⟩⟩

theorem calls_perform {a : Action} (h : a.body.KeepsCalls) (st : State) :
    (a.perform.run st).2.calls = st.calls ++ [a.call] :=
  h _

theorem Succeeds.calls_eq {actions : List Action} (h : Succeeds actions st final)
    (hkeeps : ∀ a ∈ actions, a.body.KeepsCalls) : final.calls = st.calls ++ actions.map Action.call := by
  induction h with
  | nil => simp
  | @cons a rest st mid final hfirst _ ih =>
    obtain ⟨ha, hrest⟩ := List.forall_mem_cons.1 hkeeps
    have hcalls := calls_perform ha st
    rw [hfirst] at hcalls
    rw [ih hrest, hcalls, List.map_cons, List.append_assoc, List.singleton_append]

theorem FailsAfter.calls_eq {made : List Action} {a : Action} (h : FailsAfter made a st e final)
    (hkeeps : ∀ b ∈ made ++ [a], b.body.KeepsCalls) : final.calls = st.calls ++ (made ++ [a]).map Action.call := by
  obtain ⟨mid, hmade, hfails⟩ := h
  obtain ⟨hkeeps, ha⟩ := List.forall_mem_append.1 hkeeps
  have hcalls := calls_perform (ha a List.mem_cons_self) mid
  rw [hfails] at hcalls
  rw [hcalls, hmade.calls_eq hkeeps, List.map_append, List.append_assoc]
  rfl

theorem keepsCalls_of_mem_plan (hplugins : ∀ plugin ∈ p.plugins, plugin.KeepsCalls)
    (hphases : ∀ phase ∈ p.phases, phase.run.KeepsCalls) {a : Action} (ha : a ∈ p.plan s) : a.body.KeepsCalls := by
  obtain ⟨phase, hphase, ha⟩ := List.mem_flatMap.1 ha
  rw [around, List.mem_append, List.mem_cons] at ha
  rcases ha with hbefore | rfl | hafter
  · obtain ⟨plugin, hplugin, rfl⟩ := List.mem_map.1 hbefore
    exact (hplugins plugin hplugin phase.name).1
  · rcases List.mem_append.1 hphase with hstage | hown
    · obtain ⟨stage, -, rfl⟩ := List.mem_map.1 hstage
      exact keepsCalls_run s p.compiler stage
    · exact hphases phase hown
  · obtain ⟨plugin, hplugin, rfl⟩ := List.mem_map.1 hafter
    exact (hplugins plugin hplugin phase.name).2

/-- A pass makes the calls of its plan, each in the state that the one before has left, up to the
first that fails. It succeeds if none does, and otherwise ends with that one's error. What it records
is what it has called, unless a plugin or a phase of the caller's own meddles with the record. -/
theorem run_protocol (p : Pipeline) (s : Schedule) (c : Config) (fs : FileSystem) :
    (p.plan s).map Action.call =
      (["clean", "snapshot-before", "compile", "merge", "snapshot-after", "prune"] ++
        p.phases.map Phase.name).flatMap (callsAround p.plugins) ∧
    (∀ final, p.run s c fs = (.ok (), final) ↔ Succeeds (p.plan s) ⟨fs, .new c, []⟩ final) ∧
    (∀ e final, p.run s c fs = (.error e, final) ↔
      ∃ made a rest, p.plan s = made ++ a :: rest ∧ FailsAfter made a ⟨fs, .new c, []⟩ e final) ∧
    ((∀ plugin ∈ p.plugins, plugin.KeepsCalls) → (∀ phase ∈ p.phases, phase.run.KeepsCalls) →
      (∀ final, p.run s c fs = (.ok (), final) → final.calls = (p.plan s).map Action.call) ∧
      ∀ made a rest e final, p.plan s = made ++ a :: rest → FailsAfter made a ⟨fs, .new c, []⟩ e final →
        final.calls = (made ++ [a]).map Action.call) := by
  have hok (final : State) : p.run s c fs = (.ok (), final) ↔ Succeeds (p.plan s) ⟨fs, .new c, []⟩ final := by
    rw [run, pass_eq_carryOut, carryOut_eq_ok_iff]
  refine ⟨calls_plan p s, hok, ?_, ?_⟩
  · intro e final
    rw [run, pass_eq_carryOut, carryOut_eq_error_iff]
  · intro hplugins hphases
    constructor
    · intro final hrun
      exact ((hok final).1 hrun).calls_eq fun a ha => keepsCalls_of_mem_plan hplugins hphases ha
    · intro made a rest e final hplan hfails
      apply hfails.calls_eq
      intro b hb
      apply keepsCalls_of_mem_plan (s := s) hplugins hphases
      rw [hplan]
      simp only [List.mem_append, List.mem_cons, List.not_mem_nil, or_false] at hb ⊢
      exact hb.imp_right .inl

namespace Sample

def scribe : Plugin :=
  ⟨"scribe", fun _ => pure (), fun phase => note ⟨.info, phase, "seen", none⟩⟩

def report : Phase :=
  ⟨"report", note ⟨.info, "report", "done", none⟩⟩

theorem keepsCalls_alarm : alarm.KeepsCalls := by
  intro phase
  constructor
  · intro st
    rfl
  · intro st
    rw [alarm]
    dsimp only
    split <;> rfl

def watched : Pipeline :=
  ⟨emit, [scribe, alarm], [report]⟩

end Sample

theorem run_protocol_sample : ∃ made a rest e final,
    Sample.watched.run .inOrder Sample.config Sample.stale = (.error e, final) ∧
      Sample.watched.plan .inOrder = made ++ a :: rest ∧ a.call = .after "alarm" "merge" ∧
      final.calls = (made ++ [a]).map Action.call := by
  have hfails : (Sample.watched.run .inOrder Sample.config Sample.stale).1.toBool = false := by
    decide +kernel
  have hlast : (Sample.watched.run .inOrder Sample.config Sample.stale).2.calls.getLast? =
      some (.after "alarm" "merge") := by
    decide +kernel
  have hplugins : ∀ plugin ∈ Sample.watched.plugins, plugin.KeepsCalls :=
    List.forall_mem_cons.2 ⟨fun _ => ⟨fun _ => rfl, fun _ => rfl⟩, by simpa using Sample.keepsCalls_alarm⟩
  have hphases : ∀ phase ∈ Sample.watched.phases, phase.run.KeepsCalls :=
    List.forall_mem_cons.2 ⟨fun _ => rfl, by simp⟩
  obtain ⟨e, he⟩ := exists_eq_error_of_toBool hfails
  obtain ⟨-, -, herror, hrecord⟩ := run_protocol Sample.watched .inOrder Sample.config Sample.stale
  obtain ⟨made, a, rest, hplan, hafter⟩ := (herror _ _).1 he
  have hcalls := (hrecord hplugins hphases).2 made a rest _ _ hplan hafter
  refine ⟨made, a, rest, e, _, he, hplan, ?_, hcalls⟩
  rw [hcalls, List.map_append] at hlast
  simpa using hlast

end Pipeline

end DeclBundle
