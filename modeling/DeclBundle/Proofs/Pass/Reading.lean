import DeclBundle.Proofs.FileSystem.Dismantling
import DeclBundle.Proofs.FileSystem.Reading
import DeclBundle.Proofs.Pass.Failure

/-!
Files that are read at the same time, each by a task of its own. The tasks end in any order and are joined
in any order; each text goes to the place of its path, and the first failure that is joined ends it all.
-/

namespace DeclBundle

/-- The tasks that read, those that have ended with what they came to, the places for the texts, and the
failure that was joined. -/
structure Batch where
  running : List (Nat × Path)
  ended : List (Nat × Path × Except IoError String)
  slots : List (Option (Path × String))
  failure : Option PassError

namespace Batch

variable {outcome : Nat → Except IoError String} {paths : List Path} {a b c : Batch} {i n : Nat} {p : Path}
  {s : Schedule} {fs : FileSystem} {order : List Nat} {texts : List String}

def numbered (paths : List Path) (order : List Nat) : List (Nat × Path) :=
  order.filterMap fun i => paths[i]?.map (i, ·)

def spawn (paths : List Path) : Batch where
  running := numbered paths (List.range paths.length)
  ended := []
  slots := List.replicate paths.length none
  failure := none

inductive Step (outcome : Nat → Except IoError String) : Batch → Batch → Prop
  | read {i : Nat} {p : Path} {front rest : List (Nat × Path)} {ended : List (Nat × Path × Except IoError String)}
      {slots : List (Option (Path × String))} :
      Step outcome ⟨front ++ (i, p) :: rest, ended, slots, none⟩
        ⟨front ++ rest, ended ++ [(i, p, outcome i)], slots, none⟩
  | place {i : Nat} {p : Path} {text : String} {running : List (Nat × Path)}
      {front rest : List (Nat × Path × Except IoError String)} {slots : List (Option (Path × String))} :
      Step outcome ⟨running, front ++ (i, p, .ok text) :: rest, slots, none⟩
        ⟨running, front ++ rest, slots.set i (some (p, text)), none⟩
  | fail {i : Nat} {p : Path} {e : IoError} {running : List (Nat × Path)}
      {front rest : List (Nat × Path × Except IoError String)} {slots : List (Option (Path × String))} :
      Step outcome ⟨running, front ++ (i, p, .error e) :: rest, slots, none⟩
        ⟨running, front ++ rest, slots, some (.read p e)⟩

def Done (b : Batch) : Prop :=
  b.failure ≠ none ∨ b.running = [] ∧ b.ended = []

def result (b : Batch) : Except PassError (List (Path × String)) :=
  match b.failure with
  | some e => .error e
  | none => .ok (b.slots.filterMap id)

def cost (b : Batch) : Nat :=
  2 * b.running.length + b.ended.length

theorem Step.decreases (h : Step outcome a b) : b.cost < a.cost := by
  cases h with
  | read =>
    simp only [cost, List.length_append, List.length_cons, List.length_nil]
    omega
  | place => simp [cost]
  | fail => simp [cost]

theorem exists_step (b : Batch) (h : ¬b.Done) : ∃ c, Step outcome b c := by
  obtain ⟨running, ended, slots, failure⟩ := b
  obtain rfl : failure = none := by
    cases failure with
    | none => rfl
    | some e => exact absurd (.inl (by simp)) h
  cases running with
  | cons task rest =>
    have hread : Step outcome ⟨[] ++ (task.1, task.2) :: rest, ended, slots, none⟩ _ := .read
    exact ⟨_, hread⟩
  | nil =>
    cases ended with
    | nil => exact absurd (.inr ⟨rfl, rfl⟩) h
    | cons task rest =>
      obtain ⟨i, p, e | text⟩ := task
      · have hfail : Step outcome ⟨[], [] ++ (i, p, .error e) :: rest, slots, none⟩ _ := .fail
        exact ⟨_, hfail⟩
      · have hplace : Step outcome ⟨[], [] ++ (i, p, .ok text) :: rest, slots, none⟩ _ := .place
        exact ⟨_, hplace⟩

theorem mem_of_mem_rest {α : Type} {x y : α} {front rest : List α} (h : y ∈ front ++ rest) :
    y ∈ front ++ x :: rest :=
  List.mem_append.2 ((List.mem_append.1 h).imp_right (List.mem_cons_of_mem x))

theorem mem_rest_of_ne {α : Type} {x y : α} {front rest : List α} (h : y ∈ front ++ x :: rest) (hne : y ≠ x) :
    y ∈ front ++ rest :=
  List.mem_append.2 ((List.mem_append.1 h).imp_right fun h => (List.mem_cons.1 h).resolve_left hne)

theorem mem_numbered_iff : (i, p) ∈ numbered paths order ↔ i ∈ order ∧ paths[i]? = some p := by
  rw [numbered, List.mem_filterMap]
  constructor
  · rintro ⟨j, hj, h⟩
    obtain ⟨q, hq, heq⟩ := Option.map_eq_some_iff.1 h
    cases heq
    exact ⟨hj, hq⟩
  · rintro ⟨hi, hp⟩
    exact ⟨i, hi, by rw [hp, Option.map_some]⟩

theorem mem_numbered_range_iff : (i, p) ∈ numbered paths (List.range paths.length) ↔ paths[i]? = some p := by
  rw [mem_numbered_iff, List.mem_range]
  exact ⟨And.right, fun hp => ⟨(List.getElem?_eq_some_iff.1 hp).1, hp⟩⟩

structure Orderly (outcome : Nat → Except IoError String) (paths : List Path) (b : Batch) : Prop where
  length_eq : b.slots.length = paths.length
  running : ∀ i p, (i, p) ∈ b.running → paths[i]? = some p
  ended : ∀ i p r, (i, p, r) ∈ b.ended → paths[i]? = some p ∧ r = outcome i
  covers : b.failure = none → ∀ i p, paths[i]? = some p → (i, p) ∈ b.running ∨ (i, p, outcome i) ∈ b.ended ∨
    ∃ text, outcome i = .ok text ∧ b.slots[i]? = some (some (p, text))
  failure : ∀ e, b.failure = some e → ∃ i p err, paths[i]? = some p ∧ outcome i = .error err ∧ e = .read p err

theorem orderly_spawn (outcome : Nat → Except IoError String) (paths : List Path) :
    Orderly outcome paths (spawn paths) where
  length_eq := List.length_replicate
  running _ _ h := mem_numbered_range_iff.1 h
  ended := nofun
  covers _ _ _ hp := .inl (mem_numbered_range_iff.2 hp)
  failure := nofun

theorem Orderly.step (h : Orderly outcome paths a) (hstep : Step outcome a b) : Orderly outcome paths b := by
  cases hstep with
  | @read i p front rest ended slots =>
    have hp := h.running i p (by simp)
    constructor
    case length_eq => exact h.length_eq
    case running => exact fun j q hq => h.running j q (mem_of_mem_rest hq)
    case ended =>
      intro j q r hr
      rcases List.mem_append.1 hr with hr | hr
      · exact h.ended j q r hr
      · cases List.mem_singleton.1 hr
        exact ⟨hp, rfl⟩
    case covers =>
      intro _ j q hq
      rcases h.covers rfl j q hq with hrunning | hended | hplaced
      · by_cases heq : (j, q) = (i, p)
        · cases heq
          exact .inr (.inl (by simp))
        · exact .inl (mem_rest_of_ne hrunning heq)
      · exact .inr (.inl (List.mem_append_left _ hended))
      · exact .inr (.inr hplaced)
    case failure => exact nofun
  | @place i p text running front rest slots =>
    obtain ⟨hp, houtcome⟩ := h.ended i p (.ok text) (by simp)
    have hi : i < slots.length := by
      rw [h.length_eq]
      exact (List.getElem?_eq_some_iff.1 hp).1
    constructor
    case length_eq => simpa using h.length_eq
    case running => exact h.running
    case ended => exact fun j q r hr => h.ended j q r (mem_of_mem_rest hr)
    case covers =>
      intro _ j q hq
      by_cases hij : i = j
      · -- the path at this number is the task's own
        subst hij
        rw [hp] at hq
        cases hq
        exact .inr (.inr ⟨text, houtcome.symm, List.getElem?_set_self hi⟩)
      · rw [List.getElem?_set_ne hij]
        rcases h.covers rfl j q hq with hrunning | hended | hplaced
        · exact .inl hrunning
        · have hne : (j, q, outcome j) ≠ (i, p, .ok text) := fun heq => hij (congrArg Prod.fst heq).symm
          exact .inr (.inl (mem_rest_of_ne hended hne))
        · exact .inr (.inr hplaced)
    case failure => exact nofun
  | @fail i p e running front rest slots =>
    obtain ⟨hp, houtcome⟩ := h.ended i p (.error e) (by simp)
    constructor
    case length_eq => exact h.length_eq
    case running => exact h.running
    case ended => exact fun j q r hr => h.ended j q r (mem_of_mem_rest hr)
    case covers => exact nofun
    case failure =>
      intro failed hfailed
      cases hfailed
      exact ⟨i, p, e, hp, houtcome.symm, rfl⟩

theorem Orderly.steps (h : Steps (Step outcome) (spawn paths) n b) : Orderly outcome paths b :=
  h.keeps (fun _ _ ha hstep => ha.step hstep) (orderly_spawn outcome paths)

theorem cost_spawn (paths : List Path) : (spawn paths).cost ≤ 2 * paths.length := by
  have hlength : (numbered paths (List.range paths.length)).length ≤ (List.range paths.length).length :=
    List.length_filterMap_le _ _
  rw [List.length_range] at hlength
  have hcost : (spawn paths).cost = 2 * (numbered paths (List.range paths.length)).length + 0 := rfl
  omega

theorem Orderly.slot (h : Orderly outcome paths b) (hdone : b.Done) (hnone : b.failure = none)
    (hp : paths[i]? = some p) : ∃ text, outcome i = .ok text ∧ b.slots[i]? = some (some (p, text)) := by
  obtain ⟨hrunning, hended⟩ := hdone.resolve_left fun hfailed => hfailed hnone
  rcases h.covers hnone i p hp with hin | hin | hplaced
  · rw [hrunning] at hin
    cases hin
  · rw [hended] at hin
    cases hin
  · exact hplaced

theorem getElem?_of_outcomes (h : (List.range paths.length).map outcome = texts.map .ok) (hp : paths[i]? = some p) :
    ∃ text, outcome i = .ok text ∧ texts[i]? = some text := by
  have hi : i < paths.length := (List.getElem?_eq_some_iff.1 hp).1
  have houtcome : (texts.map Except.ok)[i]? = some (outcome i) := by
    rw [← h, List.getElem?_map, List.getElem?_range hi, Option.map_some]
  rw [List.getElem?_map, Option.map_eq_some_iff] at houtcome
  obtain ⟨text, htext, heq⟩ := houtcome
  exact ⟨text, heq.symm, htext⟩

theorem length_of_outcomes (h : (List.range paths.length).map outcome = texts.map .ok) :
    paths.length = texts.length := by
  simpa using congrArg List.length h

theorem Orderly.slots_eq (h : Orderly outcome paths b) (hdone : b.Done) (hnone : b.failure = none)
    (houtcome : (List.range paths.length).map outcome = texts.map .ok) :
    b.slots = (paths.zip texts).map some := by
  have hlength : (paths.zip texts).length = paths.length := by
    rw [List.length_zip, ← length_of_outcomes houtcome, Nat.min_self]
  apply List.ext_getElem?
  intro i
  cases hp : paths[i]? with
  | none =>
    have hle : paths.length ≤ i := List.getElem?_eq_none_iff.1 hp
    rw [List.getElem?_eq_none (by rwa [h.length_eq]), List.getElem?_eq_none (by rwa [List.length_map, hlength])]
  | some p =>
    obtain ⟨text, hok, htext⟩ := getElem?_of_outcomes houtcome hp
    obtain ⟨placed, hplaced, hslot⟩ := h.slot hdone hnone hp
    rw [hok] at hplaced
    cases hplaced
    have hzip : (paths.zip texts)[i]? = some (p, text) := List.getElem?_zip_eq_some.2 ⟨hp, htext⟩
    rw [hslot, List.getElem?_map, hzip, Option.map_some]

theorem Orderly.result_of_ok (h : Orderly outcome paths b) (hdone : b.Done)
    (houtcome : (List.range paths.length).map outcome = texts.map .ok) : b.result = .ok (paths.zip texts) := by
  have hnone : b.failure = none := by
    cases hfailure : b.failure with
    | none => rfl
    | some failed =>
      obtain ⟨i, p, e, hp, herror, -⟩ := h.failure failed hfailure
      obtain ⟨text, hok, -⟩ := getElem?_of_outcomes houtcome hp
      rw [herror] at hok
      cases hok
  rw [result, hnone, h.slots_eq hdone hnone houtcome]
  simp

theorem Orderly.result_of_error (h : Orderly outcome paths b) (hdone : b.Done) {e : IoError}
    (hp : paths[i]? = some p) (herror : outcome i = .error e) :
    ∃ j q e', paths[j]? = some q ∧ outcome j = .error e' ∧ b.result = .error (.read q e') := by
  cases hfailure : b.failure with
  | none =>
    obtain ⟨text, hok, -⟩ := h.slot hdone hfailure hp
    rw [herror] at hok
    cases hok
  | some failed =>
    obtain ⟨j, q, e', hq, hfails, rfl⟩ := h.failure failed hfailure
    exact ⟨j, q, e', hq, hfails, by rw [result, hfailure]⟩

structure Settled (outcome : Nat → Except IoError String) (paths : List Path)
    (r : Except PassError (List (Path × String))) : Prop where
  ok : ∀ texts, (List.range paths.length).map outcome = texts.map .ok →
    ∃ artifacts, r = .ok artifacts ∧ artifacts.map Prod.fst = paths ∧ artifacts.map Prod.snd = texts
  error : ∀ i e, i < paths.length → outcome i = .error e →
    ∃ j q e', paths[j]? = some q ∧ outcome j = .error e' ∧ r = .error (.read q e')

theorem Orderly.settled (h : Orderly outcome paths b) (hdone : b.Done) : Settled outcome paths b.result where
  ok texts houtcome := by
    have hlength := length_of_outcomes houtcome
    exact ⟨paths.zip texts, h.result_of_ok hdone houtcome, List.map_fst_zip (Nat.le_of_eq hlength),
      List.map_snd_zip (Nat.le_of_eq hlength.symm)⟩
  error _ _ hi herror := h.result_of_error hdone (List.getElem?_eq_getElem hi) herror

theorem map_result_of_ended {slots : List (Option (Path × String))} :
    (result ⟨[], [], slots, none⟩).map (·.map Prod.snd) = .ok ((slots.map (Option.map Prod.snd)).filterMap id) := by
  rw [List.filterMap_map, result]
  simp [List.map_filterMap]

theorem exists_steps_readSlots (hread : ∀ i p, paths[i]? = some p → outcome i = fs.read p) (order : List Nat)
    {running : List (Nat × Path)} {slots : List (Option (Path × String))}
    (h : Steps (Step outcome) a n ⟨running, [], slots, none⟩) (hrunning : running.Perm (numbered paths order)) :
    ∃ m b, Steps (Step outcome) a m b ∧ b.Done ∧ b.result.map (·.map Prod.snd) =
      (Stage.readSlots fs paths order (slots.map (Option.map Prod.snd))).map (·.filterMap id) := by
  induction order generalizing n running slots with
  | nil =>
    obtain rfl : running = [] := hrunning.eq_nil
    exact ⟨n, _, h, .inr ⟨rfl, rfl⟩, map_result_of_ended⟩
  | cons i order ih =>
    rw [Stage.readSlots]
    cases hp : paths[i]? with
    | none =>
      rw [numbered, List.filterMap_cons_none (by rw [hp, Option.map_none])] at hrunning
      exact ih h hrunning
    | some p =>
      rw [numbered, List.filterMap_cons_some (by rw [hp, Option.map_some])] at hrunning
      obtain ⟨front, rest, rfl⟩ := List.append_of_mem (hrunning.mem_iff.2 List.mem_cons_self)
      have hrest : (front ++ rest).Perm (numbered paths order) :=
        (List.perm_middle.symm.trans hrunning).cons_inv
      have hended : Steps (Step outcome) a (n + 1) ⟨front ++ rest, [] ++ (i, p, outcome i) :: [], slots, none⟩ :=
        .next h .read
      rw [hread i p hp] at hended
      cases hpath : fs.read p with
      | error e =>
        simp only [hpath] at hended ⊢
        exact ⟨n + 2, _, .next hended .fail, .inl (Option.some_ne_none _), rfl⟩
      | ok text =>
        simp only [hpath] at hended ⊢
        have hplaced := ih (.next hended .place) hrest
        rwa [List.map_set] at hplaced

theorem exists_steps_readAll (hread : ∀ i p, paths[i]? = some p → outcome i = fs.read p) (s : Schedule) :
    ∃ n b, Steps (Step outcome) (spawn paths) n b ∧ b.Done ∧
      b.result.map (·.map Prod.snd) = Stage.readAll s fs paths := by
  have hrunning : (spawn paths).running.Perm (numbered paths (s.reads paths.length)) :=
    (s.reads_perm paths.length).symm.filterMap _
  obtain ⟨n, b, hsteps, hdone, hresult⟩ := exists_steps_readSlots hread _ .none hrunning
  refine ⟨n, b, hsteps, hdone, ?_⟩
  rw [hresult, List.map_replicate, Option.map_none, Stage.readAll, Results.map_eq_bind]

def reading (i : Nat) : Schedule :=
  { Schedule.inOrder with
    reads := fun n => (List.range n).drop i ++ (List.range n).take i
    reads_perm := fun n => List.perm_append_comm.trans (.of_eq (List.take_append_drop i (List.range n))) }

theorem readAll_reading (hp : paths[i]? = some p) {e : IoError} (hread : fs.read p = .error e) :
    Stage.readAll (reading i) fs paths = .error (.read p e) := by
  have hi : i < (List.range paths.length).length := by
    rw [List.length_range]
    exact (List.getElem?_eq_some_iff.1 hp).1
  have horder : (reading i).reads paths.length =
      i :: ((List.range paths.length).drop (i + 1) ++ (List.range paths.length).take i) := by
    change (List.range paths.length).drop i ++ (List.range paths.length).take i = _
    rw [List.drop_eq_getElem_cons hi, List.getElem_range, List.cons_append]
  rw [Stage.readAll, horder, Stage.readSlots]
  simp only [hp, hread]
  rfl

theorem map_read_of_outcomes (hread : ∀ i p, paths[i]? = some p → outcome i = fs.read p) :
    (List.range paths.length).map outcome = paths.map fs.read := by
  apply List.ext_getElem
  · simp
  · intro i hi hi'
    rw [List.length_map] at hi'
    rw [List.getElem_map, List.getElem_map, List.getElem_range]
    exact hread i _ (List.getElem?_eq_getElem hi')

theorem exists_readAll_of_steps (hread : ∀ i p, paths[i]? = some p → outcome i = fs.read p)
    (h : Steps (Step outcome) (spawn paths) n b) (hdone : b.Done) :
    ∃ s, Stage.readAll s fs paths = b.result.map (·.map Prod.snd) := by
  have horderly : Orderly outcome paths b := .steps h
  cases hfailure : b.failure with
  | some failed =>
    obtain ⟨i, p, e, hp, herror, rfl⟩ := horderly.failure failed hfailure
    rw [hread i p hp] at herror
    exact ⟨reading i, by rw [readAll_reading hp herror, result, hfailure]; rfl⟩
  | none =>
    have hreadable (i : Nat) (hi : i ∈ List.range paths.length) : ∃ text, outcome i = .ok text := by
      obtain ⟨text, hok, -⟩ := horderly.slot hdone hfailure (List.getElem?_eq_getElem (List.mem_range.1 hi))
      exact ⟨text, hok⟩
    obtain ⟨texts, htexts⟩ := Results.exists_mapM_eq_ok_iff.2 hreadable
    have houtcome := Results.mapM_eq_ok_iff.1 htexts
    have hlength := length_of_outcomes houtcome
    rw [horderly.result_of_ok hdone houtcome, Results.map_ok, List.map_snd_zip (Nat.le_of_eq hlength.symm)]
    rw [map_read_of_outcomes hread] at houtcome
    exact ⟨.inOrder, Stage.readAll_of_map_read houtcome⟩

end Batch

namespace Stage

open Pass

variable {s : Schedule} {fs : FileSystem} {paths : List Path} {p : Path} {st : State} {found : List Path} {e : IoError}

theorem exists_readAll_eq_error (hp : p ∈ paths) (hread : fs.read p = .error e) :
    ∃ q ∈ paths, ∃ e', fs.read q = .error e' ∧ readAll s fs paths = .error (.read q e') := by
  obtain ⟨i, hi⟩ := List.mem_iff_getElem?.1 hp
  let outcome (j : Nat) : Except IoError String := (paths[j]?.map fs.read).getD (.ok "")
  have houtcome (j : Nat) (q : Path) (hq : paths[j]? = some q) : outcome j = fs.read q := by
    simp only [outcome, hq, Option.map_some, Option.getD_some]
  obtain ⟨n, b, hsteps, hdone, hresult⟩ := Batch.exists_steps_readAll houtcome s
  obtain ⟨j, q, e', hq, hfails, herror⟩ :=
    (Batch.Orderly.steps hsteps).result_of_error hdone hi ((houtcome i p hi).trans hread)
  rw [houtcome j q hq] at hfails
  refine ⟨q, List.mem_of_getElem? hq, e', hfails, ?_⟩
  rw [← hresult, herror, Results.map_error]

theorem run_merge_of_unreadable (hlist : listDeclarations s st.files st.context.config.outDir.path = .ok found)
    (hp : p ∈ inputs st.context found) (hread : st.files.read p = .error e) :
    ∃ q ∈ inputs st.context found, ∃ e', st.files.read q = .error e' ∧
      (runMerge s).run st = (.error (.read q e'), st) := by
  obtain ⟨q, hq, e', hfails, herror⟩ := exists_readAll_eq_error (s := s) hp hread
  have hsome : listed found st = st := if_neg (List.ne_nil_of_mem hp)
  refine ⟨q, hq, e', hfails, ?_⟩
  rw [run_merge_of_listed st hlist, hsome, run_bundling, herror]

/-- Whatever each read comes to and in whatever order the tasks end and are joined, the reads come to an end
and keep their places. Files read in an order come to what such tasks come to, and the other way round. A
merge of which an input cannot be read writes nothing and leaves its context. -/
theorem reads_keep_places (paths : List Path) (outcome : Nat → Except IoError String) :
    (∀ n b, Steps (Batch.Step outcome) (.spawn paths) n b →
      n ≤ 2 * paths.length ∧ (¬b.Done → ∃ c, Batch.Step outcome b c) ∧
      (b.Done → Batch.Settled outcome paths b.result)) ∧
    (∀ fs : FileSystem, (∀ i p, paths[i]? = some p → outcome i = fs.read p) →
      (∀ s, ∃ n b, Steps (Batch.Step outcome) (.spawn paths) n b ∧ b.Done ∧
        b.result.map (·.map Prod.snd) = readAll s fs paths) ∧
      ∀ n b, Steps (Batch.Step outcome) (.spawn paths) n b → b.Done →
        ∃ s, readAll s fs paths = b.result.map (·.map Prod.snd)) ∧
    ∀ s st found, listDeclarations s st.files st.context.config.outDir.path = .ok found →
      inputs st.context found = paths → ∀ p ∈ paths, ∀ e, st.files.read p = .error e →
        ∃ q ∈ paths, ∃ e', st.files.read q = .error e' ∧ (runMerge s).run st = (.error (.read q e'), st) := by
  refine ⟨?_, ?_, ?_⟩
  · intro n b hsteps
    have hcost : n + b.cost ≤ (Batch.spawn paths).cost := hsteps.length_le fun _ _ => Batch.Step.decreases
    have hbound := Batch.cost_spawn paths
    exact ⟨by omega, b.exists_step, (Batch.Orderly.steps hsteps).settled⟩
  · intro fs hread
    exact ⟨Batch.exists_steps_readAll hread, fun n b => Batch.exists_readAll_of_steps hread⟩
  · rintro s st found hlist rfl p hp e hread
    exact run_merge_of_unreadable hlist hp hread

namespace Sample

open Pipeline.Sample

def late : Path :=
  Location.path [out, lib]

def early : Path :=
  Location.path [out, a]

def texts : Nat → Except IoError String
  | 0 => .ok "export type A = 1"
  | _ => .ok "export type B = 2"

def unreadable : State :=
  ⟨(FileSystem.empty.put [out] (.directory 0o755)).put [out, a] (.file ⟨#[0xff, 0xfe, 0xfd]⟩ 0o644), .new config, []⟩

end Sample

theorem reads_keep_places_sample :
    (∃ b : Batch, Steps (Batch.Step Sample.texts) (.spawn [Sample.early, Sample.late]) 4 b ∧ b.Done ∧
      ∃ artifacts, b.result = .ok artifacts ∧ artifacts.map Prod.fst = [Sample.early, Sample.late] ∧
        artifacts.map Prod.snd = ["export type A = 1", "export type B = 2"]) ∧
    ∃ e, (runMerge .inOrder).run Sample.unreadable = (.error (.read Sample.early e), Sample.unreadable) := by
  constructor
  · -- the later file is read and placed before the earlier one
    have hsteps := @Steps.none _ (Batch.Step Sample.texts) (.spawn [Sample.early, Sample.late])
      |>.next (@Batch.Step.read _ 1 Sample.late [(0, Sample.early)] [] [] [none, none])
      |>.next (@Batch.Step.place _ 1 Sample.late "export type B = 2" _ [] [] _)
      |>.next (@Batch.Step.read _ 0 Sample.early [] [] [] _)
      |>.next (@Batch.Step.place _ 0 Sample.early "export type A = 1" _ [] [] _)
    have hsettled := ((reads_keep_places _ Sample.texts).1 4 _ hsteps).2.2 (.inr ⟨rfl, rfl⟩)
    exact ⟨_, hsteps, .inr ⟨rfl, rfl⟩, hsettled.ok _ rfl⟩
  · have hlist : listDeclarations .inOrder Sample.unreadable.files Sample.unreadable.context.config.outDir.path =
        .ok [Sample.early] := Results.eq_ok_of_toOption (by decide +kernel)
    have hread : (Sample.unreadable.files.read Sample.early).toBool = false := by decide +kernel
    cases hfails : Sample.unreadable.files.read Sample.early with
    | ok text =>
      rw [hfails] at hread
      exact absurd hread Bool.noConfusion
    | error e =>
      have hinputs : inputs Sample.unreadable.context [Sample.early] = [Sample.early] := by decide +kernel
      obtain ⟨q, hq, e', -, hrun⟩ := (reads_keep_places [Sample.early] Sample.texts).2.2 .inOrder Sample.unreadable
        [Sample.early] hlist hinputs Sample.early (List.mem_singleton.2 rfl) e hfails
      cases List.mem_singleton.1 hq
      exact ⟨e', hrun⟩

end Stage

end DeclBundle
