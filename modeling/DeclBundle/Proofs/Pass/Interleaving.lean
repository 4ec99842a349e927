import DeclBundle.Proofs.Pass.Confinement
import DeclBundle.Proofs.Pass.Obstruction

/-!
Two passes at once over one tree, phase by phase in any order. If their directories are apart and
their compilers keep to them, neither can tell that it is not alone.
-/

namespace DeclBundle.Pipeline

open FileSystem Pass Stage

structure Job where
  schedule : Schedule
  compiler : Compiler
  config : Config

def Job.run (job : Job) (fs : FileSystem) : Except PassError Unit × State :=
  (plain job.compiler).run job.schedule job.config fs

structure Progress where
  context : Context
  calls : List Call
  outcome : Except PassError Unit
  rest : List Phase

def Job.start (job : Job) : Progress :=
  ⟨.new job.config, [], .ok (), stages job.schedule job.compiler⟩

namespace Progress

def step (p : Progress) (fs : FileSystem) : FileSystem × Progress :=
  match p.outcome, p.rest with
  | .ok _, phase :: rest =>
    let (outcome, st) := (runPhase [] phase).run ⟨fs, p.context, p.calls⟩
    (st.files, ⟨st.context, st.calls, outcome, rest⟩)
  | _, _ => (fs, p)

def advance : Nat → FileSystem × Progress → FileSystem × Progress
  | 0, x => x
  | k + 1, x => advance k (x.2.step x.1)

def EndsAs (p : Progress) (r : Except PassError Unit × State) : Prop :=
  p.outcome = r.1 ∧ p.context = r.2.context ∧ p.calls = r.2.calls

end Progress

inductive Turn
  | first
  | second
  deriving DecidableEq

structure Joint where
  files : FileSystem
  first : Progress
  second : Progress

namespace Joint

def start (one two : Job) (fs : FileSystem) : Joint :=
  ⟨fs, one.start, two.start⟩

def turn (j : Joint) : Turn → Joint
  | .first => { j with files := (j.first.step j.files).1, first := (j.first.step j.files).2 }
  | .second => { j with files := (j.second.step j.files).1, second := (j.second.step j.files).2 }

def play (j : Joint) (turns : List Turn) : Joint :=
  turns.foldl turn j

end Joint

structure InOrder (one two : Job) (fs files : FileSystem) (p q : Progress) : Prop where
  first : p.EndsAs (one.run fs)
  second : q.EndsAs (two.run (one.run fs).2.files)
  outDir_first : ∀ rel, files.get? (one.config.outDir ++ rel) =
    (two.run (one.run fs).2.files).2.files.get? (one.config.outDir ++ rel)
  outDir_second : ∀ rel, files.get? (two.config.outDir ++ rel) =
    (two.run (one.run fs).2.files).2.files.get? (two.config.outDir ++ rel)

/-- No link is at, above or below the two directories of a pass, and its compiler keeps to them. -/
structure Job.Secluded (job : Job) (fs : FileSystem) : Prop where
  unlinked_inDir : fs.Unlinked job.config.inDir
  unlinked_outDir : fs.Unlinked job.config.outDir
  confined : job.compiler.Confined job.config.inDir job.config.outDir

theorem Job.Secluded.twins {job : Job} {fs : FileSystem} (h : job.Secluded fs) :
    Twins job.config.inDir job.config.outDir fs fs :=
  .refl h.unlinked_inDir h.unlinked_outDir

structure Disjoint (c c' : Config) : Prop where
  outDirs : c.outDir.Apart c'.outDir
  inDir_first : c.inDir.Apart c'.outDir
  inDir_second : c'.inDir.Apart c.outDir

theorem Disjoint.symm {c c' : Config} (h : Disjoint c c') : Disjoint c' c :=
  ⟨h.outDirs.symm, h.inDir_second, h.inDir_first⟩

variable {one two job : Job} {fs files gs : FileSystem} {p q : Progress} {x : FileSystem × Progress} {b : Location}
  {turns : List Turn} {k : Nat}

theorem run_runPhase_nil (phase : Phase) (st : State) :
    (runPhase [] phase).run st = phase.run.run { st with calls := st.calls ++ [.phase phase.name] } := by
  have hcall : runPhase [] phase = (do
      modify fun st => { st with calls := st.calls ++ [.phase phase.name] }
      phase.run) := by
    simp [runPhase, call]
  rw [hcall]
  rfl

namespace Progress

theorem step_of_ok {u : Unit} {phase : Phase} {rest : List Phase} (ho : p.outcome = .ok u) (hr : p.rest = phase :: rest)
    (fs : FileSystem) : p.step fs =
      let r := phase.run.run ⟨fs, p.context, p.calls ++ [.phase phase.name]⟩
      (r.2.files, ⟨r.2.context, r.2.calls, r.1, rest⟩) := by
  rw [step, ho, hr]
  dsimp only
  rw [run_runPhase_nil]
  rfl

theorem step_of_error {e : PassError} (ho : p.outcome = .error e) (fs : FileSystem) : p.step fs = (fs, p) := by
  rw [step, ho]

theorem step_of_nil (hr : p.rest = []) (fs : FileSystem) : p.step fs = (fs, p) := by
  rw [step, hr]
  split
  next h => cases h
  next => rfl

def result (x : FileSystem × Progress) : Except PassError Unit × State :=
  (x.2.outcome, ⟨x.1, x.2.context, x.2.calls⟩)

theorem endsAs_of_result {r : Except PassError Unit × State} (h : result x = r) : x.2.EndsAs r ∧ r.2.files = x.1 := by
  subst h
  exact ⟨⟨rfl, rfl, rfl⟩, rfl⟩

theorem advance_of_step_eq (h : x.2.step x.1 = x) (k : Nat) : advance k x = x := by
  induction k with
  | zero => rfl
  | succ k ih => rw [advance, h, ih]

theorem result_advance {phases : List Phase} (hk : phases.length ≤ k) (st : State) :
    result (advance k (st.files, ⟨st.context, st.calls, .ok (), phases⟩)) = (forM phases (runPhase [])).run st := by
  induction phases generalizing k st with
  | nil =>
    rw [advance_of_step_eq (step_of_nil rfl _)]
    rfl
  | cons phase rest ih =>
    cases k with
    | zero => simp at hk
    | succ k =>
      rw [advance, List.forM_cons, step]
      dsimp only
      rw [run_bind]
      rcases hrun : (runPhase [] phase).run st with ⟨e | u, mid⟩
      · rw [advance_of_step_eq]
        · rfl
        · exact step_of_error rfl _
      · apply ih
        simpa using hk

theorem result_advance_start (job : Job) (fs : FileSystem) (hk : 6 ≤ k) :
    result (advance k (fs, job.start)) = job.run fs := by
  have hlength : (stages job.schedule job.compiler).length ≤ k := hk
  have hpass : (plain job.compiler).pass job.schedule = (stages job.schedule job.compiler).forM (runPhase []) := by
    rw [pass, plain, List.append_nil]
  rw [Job.run, run, hpass]
  exact result_advance hlength ⟨fs, .new job.config, []⟩

end Progress

/-- A pass on a tree has come as far as it would have come alone. -/
structure Tracks (job : Job) (alone : FileSystem × Progress) (files : FileSystem) (p : Progress) : Prop where
  progress_eq : alone.2 = p
  twins : Twins job.config.inDir job.config.outDir alone.1 files
  keeping : Keeping job.config p.context
  stages : ∀ phase ∈ p.rest, ∃ stage : Stage, phase = ⟨stage.name, stage.run job.schedule job.compiler⟩

theorem tracks_start (h : Twins job.config.inDir job.config.outDir fs files) :
    Tracks job (fs, job.start) files job.start where
  progress_eq := rfl
  twins := h
  keeping := keeping_new job.config
  stages phase hphase := by
    obtain ⟨stage, -, rfl⟩ := List.mem_map.1 hphase
    exact ⟨stage, rfl⟩

theorem Tracks.other (h : Tracks job x files p) (hin : Alike files gs job.config.inDir)
    (hout : Alike files gs job.config.outDir) : Tracks job x gs p :=
  ⟨h.progress_eq, ⟨h.twins.alike_inDir.trans hin, h.twins.alike_outDir.trans hout, h.twins.unlinked_inDir,
    h.twins.unlinked_outDir⟩, h.keeping, h.stages⟩

section Alone

variable (hroot : job.config.outDir ≠ []) (hnames : ∀ n ∈ job.config.outDir, n.isStorable = true)
  (hconfined : job.compiler.Confined job.config.inDir job.config.outDir)
include hroot hnames hconfined

theorem Tracks.own (h : Tracks job x files p) : Tracks job (x.2.step x.1) (p.step files).1 (p.step files).2 := by
  obtain ⟨tree, q⟩ := x
  obtain ⟨rfl, ht, hkeeping, hstages⟩ := id h
  dsimp only
  cases ho : q.outcome with
  | error e =>
    rw [Progress.step_of_error ho, Progress.step_of_error ho]
    exact h
  | ok u =>
    cases hr : q.rest with
    | nil =>
      rw [Progress.step_of_nil hr, Progress.step_of_nil hr]
      exact h
    | cons phase rest =>
      rw [hr] at hstages
      obtain ⟨stage, rfl⟩ := hstages phase List.mem_cons_self
      rw [Progress.step_of_ok ho hr, Progress.step_of_ok ho hr]
      obtain ⟨hsame, hcontext, hcalls, hkept, htwins⟩ := indifferent_run hroot hnames hconfined job.schedule stage
        ⟨tree, q.context, q.calls ++ [.phase stage.name]⟩ ⟨files, q.context, q.calls ++ [.phase stage.name]⟩
        ⟨rfl, rfl, hkeeping, ht⟩
      constructor
      case progress_eq => simp only [hsame, hcontext, hcalls]
      case twins => exact htwins
      case keeping => simpa only [← hcontext] using hkept
      case stages =>
        intro later hlater
        exact hstages later (List.mem_cons_of_mem _ hlater)

theorem Tracks.frame (h : Tracks job x files p) (hb : b.Apart job.config.outDir) : Alike files (p.step files).1 b := by
  cases ho : p.outcome with
  | error e =>
    rw [Progress.step_of_error ho]
    exact .refl files b
  | ok u =>
    cases hr : p.rest with
    | nil =>
      rw [Progress.step_of_nil hr]
      exact .refl files b
    | cons phase rest =>
      obtain ⟨stage, rfl⟩ := h.stages phase (by simp [hr])
      rw [Progress.step_of_ok ho hr]
      have hkeeping : Keeping job.config (State.mk files p.context (p.calls ++ [.phase stage.name])).context := h.keeping
      have hchange := hkeeping.change_run job.schedule job.compiler stage
      exact hchange.alike hroot hnames hconfined h.twins.other hb

theorem Tracks.advance (h : Tracks job x files p) (k : Nat) : Tracks job (Progress.advance k x)
    (Progress.advance k (files, p)).1 (Progress.advance k (files, p)).2 := by
  induction k generalizing x files p with
  | zero => exact h
  | succ k ih => exact ih (h.own hroot hnames hconfined)

theorem Tracks.frame_advance (h : Tracks job x files p) (hb : b.Apart job.config.outDir) (k : Nat) :
    Alike files (Progress.advance k (files, p)).1 b := by
  induction k generalizing x files p with
  | zero => exact .refl files b
  | succ k ih =>
    have hfirst := h.frame hroot hnames hconfined hb
    exact hfirst.trans (ih (h.own hroot hnames hconfined))

end Alone

theorem Progress.step_advance (k : Nat) (x : FileSystem × Progress) :
    (Progress.advance k x).2.step (Progress.advance k x).1 = Progress.advance (k + 1) x := by
  induction k generalizing x with
  | zero => rfl
  | succ k ih => exact ih _

section Both

variable (hdisjoint : Disjoint one.config two.config) (hone : one.Secluded fs) (htwo : two.Secluded fs)
  (hnames : ∀ n ∈ one.config.outDir, n.isStorable = true) (hnames' : ∀ n ∈ two.config.outDir, n.isStorable = true)
include hdisjoint hone htwo hnames hnames'

theorem tracks_play {j : Joint} {m n : Nat} (h₁ : Tracks one (Progress.advance m (fs, one.start)) j.files j.first)
    (h₂ : Tracks two (Progress.advance n (fs, two.start)) j.files j.second) (turns : List Turn) :
    Tracks one (Progress.advance (m + turns.count .first) (fs, one.start)) (j.play turns).files (j.play turns).first ∧
      Tracks two (Progress.advance (n + turns.count .second) (fs, two.start)) (j.play turns).files
        (j.play turns).second := by
  have hroot := hdisjoint.outDirs.ne_root
  have hroot' := hdisjoint.outDirs.symm.ne_root
  -- the phase of whoever has the turn is a step of its own, and the other sees nothing of it
  induction turns generalizing j m n with
  | nil => exact ⟨h₁, h₂⟩
  | cons turn turns ih =>
    cases turn with
    | first =>
      have hown := h₁.own hroot hnames hone.confined
      have hin := h₁.frame hroot hnames hone.confined hdisjoint.inDir_second
      have hout := h₁.frame hroot hnames hone.confined hdisjoint.outDirs.symm
      have hcount : m + (Turn.first :: turns).count .first = m + 1 + turns.count .first := by
        rw [List.count_cons_self]
        omega
      have hcount' : (Turn.first :: turns).count .second = turns.count .second := List.count_cons_of_ne (by decide)
      rw [Progress.step_advance] at hown
      rw [hcount, hcount']
      exact ih hown (h₂.other hin hout)
    | second =>
      have hown := h₂.own hroot' hnames' htwo.confined
      have hin := h₂.frame hroot' hnames' htwo.confined hdisjoint.inDir_first
      have hout := h₂.frame hroot' hnames' htwo.confined hdisjoint.outDirs
      have hcount : (Turn.second :: turns).count .first = turns.count .first := List.count_cons_of_ne (by decide)
      have hcount' : n + (Turn.second :: turns).count .second = n + 1 + turns.count .second := by
        rw [List.count_cons_self]
        omega
      rw [Progress.step_advance] at hown
      rw [hcount, hcount']
      exact ih (h₁.other hin hout) hown

theorem inOrder_of_tracks {m n : Nat} (hm : 6 ≤ m) (hn : 6 ≤ n)
    (h₁ : Tracks one (Progress.advance m (fs, one.start)) files p)
    (h₂ : Tracks two (Progress.advance n (fs, two.start)) files q) : InOrder one two fs files p q := by
  have hroot := hdisjoint.outDirs.ne_root
  have hroot' := hdisjoint.outDirs.symm.ne_root
  obtain ⟨hends, hfiles⟩ := Progress.endsAs_of_result (Progress.result_advance_start one fs hm)
  rw [h₁.progress_eq] at hends
  -- the second pass finds its directories as they were
  have hstart : Tracks one (fs, one.start) fs one.start := tracks_start hone.twins
  have hin := hstart.frame_advance hroot hnames hone.confined hdisjoint.inDir_second m
  have hout := hstart.frame_advance hroot hnames hone.confined hdisjoint.outDirs.symm m
  rw [← hfiles] at hin hout
  have hafter : Twins two.config.inDir two.config.outDir fs (one.run fs).2.files :=
    ⟨hin, hout, htwo.unlinked_inDir, htwo.unlinked_outDir⟩
  have hlate := (tracks_start hafter).advance hroot' hnames' htwo.confined n
  have hlast := (tracks_start hafter.other).frame_advance hroot' hnames' htwo.confined hdisjoint.outDirs n
  obtain ⟨hends', hfiles'⟩ := Progress.endsAs_of_result (Progress.result_advance_start two (one.run fs).2.files hn)
  rw [← hlate.progress_eq, h₂.progress_eq] at hends'
  constructor
  case first => exact hends
  case second => exact hends'
  case outDir_first =>
    intro rel
    rw [hfiles', ← hlast.get?_eq, hfiles]
    exact (h₁.twins.alike_outDir.get?_eq rel).symm
  case outDir_second =>
    intro rel
    rw [hfiles']
    exact (h₂.twins.alike_outDir.get?_eq rel).symm.trans (hlate.twins.alike_outDir.get?_eq rel)

end Both

/-- Two passes whose directories are apart end as they do one after the other, in either order, in
whatever order their phases come. -/
theorem play_inOrder (one two : Job) (fs : FileSystem) (turns : List Turn) (hdisjoint : Disjoint one.config two.config)
    (hone : one.Secluded fs) (htwo : two.Secluded fs) (hnames : ∀ n ∈ one.config.outDir, n.isStorable = true)
    (hnames' : ∀ n ∈ two.config.outDir, n.isStorable = true) (hfirst : 6 ≤ turns.count .first)
    (hsecond : 6 ≤ turns.count .second) :
    InOrder one two fs ((Joint.start one two fs).play turns).files ((Joint.start one two fs).play turns).first
        ((Joint.start one two fs).play turns).second ∧
      InOrder two one fs ((Joint.start one two fs).play turns).files ((Joint.start one two fs).play turns).second
        ((Joint.start one two fs).play turns).first := by
  have hstart : Tracks one (Progress.advance 0 (fs, one.start)) (Joint.start one two fs).files one.start :=
    tracks_start hone.twins
  have hstart' : Tracks two (Progress.advance 0 (fs, two.start)) (Joint.start one two fs).files two.start :=
    tracks_start htwo.twins
  obtain ⟨h₁, h₂⟩ := tracks_play hdisjoint hone htwo hnames hnames' hstart hstart' turns
  rw [Nat.zero_add] at h₁ h₂
  exact ⟨inOrder_of_tracks hdisjoint hone htwo hnames hnames' hfirst hsecond h₁ h₂,
    inOrder_of_tracks hdisjoint.symm htwo hone hnames' hnames hsecond hfirst h₂ h₁⟩

namespace Sample

def build : Name := ⟨"build", by decide⟩
def web : Name := ⟨"web", by decide⟩
def server : Name := ⟨"server", by decide⟩

theorem isName_replicate {k : Nat} (hk : 2 < k) : isName (String.ofList (List.replicate k 'a')) = true := by
  have hne (t : String) (ht : t.length ≤ 2) : String.ofList (List.replicate k 'a') ≠ t := by
    rintro rfl
    rw [String.length_ofList, List.length_replicate] at ht
    omega
  simp [isName, hne "" (by decide), hne "." (by decide), hne ".." (by decide)]

def endless : Name := ⟨String.ofList (List.replicate 256 'a'), isName_replicate (by decide)⟩

def jobIn (n : Name) (files : List Draft) : Job :=
  ⟨.inOrder, .writing files, ⟨[src], [build, n], types, .outDir, .default⟩⟩

def webFiles : List Draft := [⟨[], a, "export type Web = 1"⟩]

def serverFiles : List Draft := [⟨[lib], a, "import x\nexport type Server = 2"⟩]

def byTurns : List Turn := (List.replicate 6 [.first, .second]).flatten

theorem isStorable_endless : endless.isStorable = false := by
  have hsize : endless.text.utf8ByteSize = 256 := by decide +kernel
  simp [Name.isStorable, hsize]

theorem accept_endless : accept (Location.path [build, endless]) = .ok () := by
  have htext : (Location.path [build, endless]).text = "/build/" ++ String.ofList (List.replicate 256 'a') := by
    decide +kernel
  have hsize : (Location.path [build, endless]).text.utf8ByteSize ≤ maxPathSize := by decide +kernel
  have hname : '\x00' ∉ List.replicate 256 'a' := fun h => absurd (List.eq_of_mem_replicate h) (by decide)
  refine accept_eq_ok_iff.2 ⟨?_, Location.text_path_ne_empty _, hsize⟩
  rw [htext, String.toList_append, (String.toList_ofList : (String.ofList (List.replicate 256 'a')).toList = _),
    List.mem_append]
  exact not_or.2 ⟨by decide, hname⟩

theorem secluded_jobIn {n : Name} {files : List Draft}
    (h : ∀ f ∈ files, ∀ m ∈ [build, n] ++ f.directory, m.isStorable = true) : (jobIn n files).Secluded .empty where
  unlinked_inDir := unlinked_of_table rfl _
  unlinked_outDir := unlinked_of_table rfl _
  confined := Compiler.confined_writing h

end Sample

theorem play_inOrder_sample :
    let one := Sample.jobIn Sample.web Sample.webFiles
    let two := Sample.jobIn Sample.server Sample.serverFiles
    let joint := (Joint.start one two .empty).play Sample.byTurns
    joint.first.outcome.toBool = true ∧ joint.second.outcome.toBool = true ∧
      InOrder one two .empty joint.files joint.first joint.second ∧
      InOrder two one .empty joint.files joint.second joint.first := by
  intro one two joint
  have hdisjoint : Disjoint one.config two.config := ⟨⟨by decide, by decide⟩, ⟨by decide, by decide⟩, ⟨by decide, by decide⟩⟩
  have hone : one.Secluded .empty := Sample.secluded_jobIn (by decide)
  have htwo : two.Secluded .empty := Sample.secluded_jobIn (by decide)
  have hboth : joint.first.outcome.toBool = true ∧ joint.second.outcome.toBool = true := by
    decide +kernel
  refine ⟨hboth.1, hboth.2, ?_⟩
  exact play_inOrder one two .empty Sample.byTurns hdisjoint hone htwo (by decide) (by decide) (by decide) (by decide)

theorem not_forall_play_inOrder : ¬∀ (one two : Job) (fs : FileSystem) (turns : List Turn),
    Disjoint one.config two.config → one.Secluded fs → two.Secluded fs →
      6 ≤ turns.count .first → 6 ≤ turns.count .second →
      InOrder one two fs ((Joint.start one two fs).play turns).files ((Joint.start one two fs).play turns).first
          ((Joint.start one two fs).play turns).second ∧
        InOrder two one fs ((Joint.start one two fs).play turns).files ((Joint.start one two fs).play turns).second
          ((Joint.start one two fs).play turns).first := by
  intro hall
  let one := Sample.jobIn Sample.endless []
  let two := Sample.jobIn Sample.web []
  let turns := List.replicate 6 Turn.first ++ List.replicate 6 Turn.second
  have hmem : Sample.endless ∈ one.config.outDir := List.mem_cons_of_mem _ List.mem_cons_self
  have hlong := Sample.isStorable_endless
  have hdisjoint : Disjoint one.config two.config := by
    have hne : Sample.endless ≠ Sample.web := fun h => absurd (h ▸ hlong) (by decide)
    have hne' : Sample.src ≠ Sample.build := by decide
    constructor <;> constructor <;> simp [one, two, Sample.jobIn, hne, hne.symm, hne', hne'.symm]
  have hone : one.Secluded .empty := Sample.secluded_jobIn (by simp)
  have htwo : two.Secluded .empty := Sample.secluded_jobIn (by simp)
  obtain ⟨hbefore, hafter⟩ := hall one two .empty turns hdisjoint hone htwo (by decide) (by decide)
  have hsame : (one.run .empty).1 = (one.run (two.run .empty).2.files).1 := hbefore.first.1.symm.trans hafter.second.1
  -- alone the pass finds its directory missing, and fails to make it
  have hmissing : FileSystem.empty.obstacle [] one.config.outDir = .notFound := by decide +kernel
  have halone : ∃ err, (one.run .empty).1 = .error (.write one.config.bundlePath err) :=
    run_of_missing hmem hlong hone.unlinked_outDir Sample.accept_endless hmissing rfl
  -- after the other pass the system looks at the name
  generalize hlast : (two.run .empty).2.files = last at hsame
  have hmade : last.isDirectoryAt [Sample.build] = true ∧ (last.table.all fun p => !p.2.isLink) = true := by
    subst hlast
    decide +kernel
  have hobstacle : last.obstacle [] one.config.outDir = .nameTooLong := by
    have hnone : last.get? ([Sample.build] ++ [Sample.endless]) = none := get?_outDir_of_unstorable hmem hlong last
    change last.obstacle [] [Sample.build, Sample.endless] = _
    rw [obstacle_cons_of_directory hmade.1, obstacle, List.nil_append, hnone]
    simp [missing, hlong]
  have hlate : (one.run last).1 = .error (.snapshot one.config.outDir.path (.os .nameTooLong)) := by
    rw [← hobstacle]
    apply run_of_obstacle hmem hlong (unlinked_of_table hmade.2 _) Sample.accept_endless
    simp [hobstacle, Errno.nameTooLong, Errno.notFound]
  obtain ⟨err, halone⟩ := halone
  rw [hlate, halone] at hsame
  cases hsame

end DeclBundle.Pipeline
