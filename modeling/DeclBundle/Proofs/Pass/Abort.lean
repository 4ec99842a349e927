import DeclBundle.Proofs.FileSystem.Replacement
import DeclBundle.Proofs.Pass.Course
import DeclBundle.Proofs.Pass.Stages

/-!
What a pass leaves that ends before it removes anything. Plugins that keep their hands off the tree
may fail wherever they like: the tree is what the last stage that has worked on it left.
-/

namespace DeclBundle

namespace Pass

variable {α β : Type}

def KeepsFiles (x : Pass α) : Prop :=
  ∀ st, (x.run st).2.files = st.files

theorem keepsFiles_pure (a : α) : KeepsFiles (pure a : Pass α) :=
  fun _ => rfl

theorem KeepsFiles.bind {x : Pass α} {f : α → Pass β} (hx : KeepsFiles x) (hf : ∀ a, KeepsFiles (f a)) :
    KeepsFiles (x >>= f) := by
  intro st
  have h := hx st
  rw [run_bind]
  split
  next a mid hrun =>
    rw [hrun] at h
    exact (hf a mid).trans h
  next e mid hrun =>
    rw [hrun] at h
    exact h

theorem KeepsFiles.forM {f : α → Pass Unit} {l : List α} (h : ∀ a ∈ l, KeepsFiles (f a)) : KeepsFiles (l.forM f) := by
  induction l with
  | nil => exact keepsFiles_pure ()
  | cons a l ih =>
    apply (h a List.mem_cons_self).bind
    intro _
    apply ih
    intro b hb
    exact h b (List.mem_cons_of_mem _ hb)

theorem keepsFiles_modify {f : State → State} (h : ∀ st, (f st).files = st.files) :
    KeepsFiles (modify f : Pass Unit) :=
  h

theorem KeepsFiles.call {x : Pass Unit} (h : KeepsFiles x) (c : Call) : KeepsFiles (Pipeline.call c x) := by
  have hnoted : KeepsFiles (modify fun st => { st with calls := st.calls ++ [c] } : Pass Unit) :=
    keepsFiles_modify fun _ => rfl
  exact hnoted.bind fun _ => h

end Pass

/-- A plugin that leaves the tree as it is. What it does to the context, and whether it fails, is
open. -/
def Plugin.Quiet (plugin : Plugin) : Prop :=
  ∀ phase, (plugin.before phase).KeepsFiles ∧ (plugin.after phase).KeepsFiles

namespace Pipeline

open FileSystem Pass Stage

variable {p : Pipeline} {s : Schedule} {c : Config} {fs : FileSystem} {stage next : Stage} {final : State}
  {e : PassError}

theorem keepsFiles_leave (hquiet : ∀ plugin ∈ p.plugins, plugin.Quiet) (phase : String) :
    KeepsFiles (leave p.plugins phase) := by
  apply KeepsFiles.forM
  intro plugin hp
  exact (hquiet plugin hp phase).2.call _

theorem keepsFiles_announce (hquiet : ∀ plugin ∈ p.plugins, plugin.Quiet) (stage : Stage) :
    KeepsFiles (p.announce stage) := by
  have henter : KeepsFiles (enter p.plugins stage.name) := by
    apply KeepsFiles.forM
    intro plugin hp
    exact (hquiet plugin hp stage.name).1.call _
  exact henter.bind fun _ => keepsFiles_modify fun _ => rfl

theorem files_clean (hquiet : ∀ plugin ∈ p.plugins, plugin.Quiet) : (p.stateAt s c fs .clean).files = fs := by
  rw [stateAt, reach_clean]
  exact keepsFiles_announce hquiet .clean _

theorem files_next (hquiet : ∀ plugin ∈ p.plugins, plugin.Quiet) (h : stage.next? = some next)
    (hs : p.Starts s c fs stage) : (p.stateAt s c fs next).files =
      ((stage.run s p.compiler).run (p.stateAt s c fs stage)).2.files := by
  have hrest : KeepsFiles (do leave p.plugins stage.name; p.announce next) :=
    (keepsFiles_leave hquiet _).bind fun _ => keepsFiles_announce hquiet next
  rw [stateAt_next h hs, proceed, run_bind]
  split
  next mid hrun =>
    rw [hrun]
    exact hrest mid
  next e mid hrun => rw [hrun]

theorem not_starts_next (h : stage.next? = some next) (hs : ¬p.Starts s c fs stage) : ¬p.Starts s c fs next := by
  intro hnext
  exact hs ((starts_next_iff h).1 hnext).1

theorem files_compile (hquiet : ∀ plugin ∈ p.plugins, plugin.Quiet) (hs : p.Starts s c fs .clean) :
    (p.stateAt s c fs .compile).files = cleaned (p.stateAt s c fs .clean).context.config fs := by
  have hclean : (p.stateAt s c fs .snapshotBefore).files = cleaned (p.stateAt s c fs .clean).context.config fs := by
    have hrun := (run_clean (p.stateAt s c fs .clean)).2.1
    rw [files_clean hquiet] at hrun
    exact (files_next hquiet next?_clean hs).trans hrun
  by_cases hb : p.Starts s c fs .snapshotBefore
  · exact (files_next hquiet next?_snapshotBefore hb).trans ((files_snapshotBefore s _ _).trans hclean)
  · rw [stateAt_next_of_not_starts next?_snapshotBefore hb, hclean]

def emitted (p : Pipeline) (s : Schedule) (c : Config) (fs : FileSystem) : FileSystem :=
  (p.compiler (p.stateAt s c fs .compile).context.config.inDir (p.stateAt s c fs .compile).context.config.outDir
    (p.stateAt s c fs .compile).files).1

theorem files_merge (hquiet : ∀ plugin ∈ p.plugins, plugin.Quiet) (hs : p.Starts s c fs .compile) :
    (p.stateAt s c fs .merge).files = p.emitted s c fs :=
  (files_next hquiet next?_compile hs).trans (files_compiled s _ _)

theorem files_prune (hquiet : ∀ plugin ∈ p.plugins, plugin.Quiet) :
    (p.stateAt s c fs .prune).files = (p.stateAt s c fs .snapshotAfter).files := by
  by_cases hs : p.Starts s c fs .snapshotAfter
  · exact (files_next hquiet next?_snapshotAfter hs).trans (files_snapshotAfter s _ _)
  · rw [stateAt_next_of_not_starts next?_snapshotAfter hs]

/-- What is in a tree that a pass has left before it removed anything, by how far it has come. -/
structure Intact (p : Pipeline) (s : Schedule) (c : Config) (fs tree : FileSystem) : Prop where
  untouched : ¬p.Starts s c fs .clean → tree = fs
  cleaned : p.Starts s c fs .clean → ¬p.Starts s c fs .compile →
    tree = cleaned (p.stateAt s c fs .clean).context.config fs
  emitted : p.Starts s c fs .compile → ¬p.Starts s c fs .merge → tree = p.emitted s c fs
  unmerged : ∀ err, p.Starts s c fs .merge → ((runMerge s).run (p.stateAt s c fs .merge)).1 = .error err →
    let config := (p.stateAt s c fs .merge).context.config
    Grown (p.emitted s c fs) tree config.outDir ∧
      tree.entryAt? config.bundlePath = (p.emitted s c fs).entryAt? config.bundlePath
  merged : p.Starts s c fs .merge → ((runMerge s).run (p.stateAt s c fs .merge)).1 = .ok () →
    let config := (p.stateAt s c fs .merge).context.config
    ∃ found texts prepared place mode,
      listDeclarations s (p.emitted s c fs) config.outDir.path = .ok found ∧
      readAll s (p.emitted s c fs) (inputs (p.stateAt s c fs .merge).context found) = .ok texts ∧
      Grown (p.emitted s c fs) prepared config.outDir ∧ prepared.place? config.bundlePath = some place ∧
      Replaced prepared tree place (Declaration.merge texts) mode ∧
      ∀ k, tree.LeadsTo config.outDir k →
        tree.entryAt? config.bundlePath = some (.file (Declaration.merge texts).toUTF8 mode)
  present : p.Starts s c fs .compile → ∀ l, ((p.emitted s c fs).get? l).isSome = true → (tree.get? l).isSome = true

theorem grown_of_merge_error {st st' : State} (h : (runMerge s).run st = (.error e, st')) :
    Grown st.files st'.files st.context.config.outDir ∧
      st'.files.entryAt? st.context.config.bundlePath = st.files.entryAt? st.context.config.bundlePath := by
  rcases run_merge_eq_error h with hsame | ⟨text, err, hreplace⟩
  · rw [hsame]
    exact ⟨.refl _ _, rfl⟩
  · obtain ⟨hgrown, hsettled⟩ := makeDirectories_path st.files st.context.config.outDir
    rcases replace_path hreplace with ⟨_, -, htree⟩ | ⟨hok, -⟩
    · exact ⟨hgrown.congr htree, (entryAt?_congr htree _ _).trans (hsettled.entryAt?_eq hgrown _)⟩
    · cases hok

theorem replaced_of_merge_ok {st st' : State} (h : (runMerge s).run st = (.ok (), st')) :
    ∃ found texts prepared place mode,
      listDeclarations s st.files st.context.config.outDir.path = .ok found ∧
      readAll s st.files (inputs st.context found) = .ok texts ∧
      Grown st.files prepared st.context.config.outDir ∧
      prepared.place? st.context.config.bundlePath = some place ∧
      Replaced prepared st'.files place (Declaration.merge texts) mode ∧
      ∀ k, st'.files.LeadsTo st.context.config.outDir k →
        st'.files.entryAt? st.context.config.bundlePath = some (.file (Declaration.merge texts).toUTF8 mode) := by
  obtain ⟨found, texts, -, hlist, hread, hreplace, -⟩ := run_merge_eq_ok h
  obtain ⟨hgrown, -⟩ := makeDirectories_path st.files st.context.config.outDir
  rcases replace_path hreplace with ⟨_, herr, -⟩ | ⟨-, -, hn, -, k, hk, hreplaced⟩
  · cases herr
  · refine ⟨found, texts, _, _, _, hlist, hread, hgrown, hk.place?_concat hn, hreplaced, ?_⟩
    intro j hj
    obtain rfl := (hreplaced.leadsTo_of_after hj).unique hk
    exact (hj.entryAt?_concat _).trans hreplaced.get?_place

theorem isSome_of_merge {st st' : State} {r : Except PassError Unit} {l : Location}
    (h : (runMerge s).run st = (r, st')) (hl : (st.files.get? l).isSome = true) : (st'.files.get? l).isSome = true := by
  have hkept {tree : FileSystem} (hg : Grown st.files tree st.context.config.outDir) : (tree.get? l).isSome = true := by
    obtain ⟨e, he⟩ := Option.isSome_iff_exists.1 hl
    rw [hg.kept l e he, Option.isSome_some]
  cases r with
  | error err => exact hkept (grown_of_merge_error h).1
  | ok u =>
    obtain ⟨_, _, prepared, place, _, -, -, hg, -, hr, -⟩ := replaced_of_merge_ok h
    exact hr.isSome (hkept hg)

/-- A pass that fails before it starts to remove has removed nothing and left nothing half-done. -/
theorem run_error_intact (hquiet : ∀ plugin ∈ p.plugins, plugin.Quiet) (h : p.run s c fs = (.error e, final))
    (hprune : ¬p.Starts s c fs .prune) : Intact p s c fs final.files := by
  have hfinal : final.files = (p.stateAt s c fs .snapshotAfter).files := by
    obtain ⟨_, hrun⟩ := run_of_not_starts hprune
    rw [h] at hrun
    rw [(Prod.mk.inj hrun).2, files_prune hquiet]
  have hearly (hs : ¬p.Starts s c fs .merge) : final.files = (p.stateAt s c fs .merge).files := by
    rw [hfinal, stateAt_next_of_not_starts next?_merge hs]
  have hlate (hs : p.Starts s c fs .merge) : final.files = ((runMerge s).run (p.stateAt s c fs .merge)).2.files :=
    hfinal.trans (files_next hquiet next?_merge hs)
  have hmerge (hs : p.Starts s c fs .merge) : (p.stateAt s c fs .merge).files = p.emitted s c fs :=
    files_merge hquiet ((starts_next_iff next?_compile).1 hs).1
  constructor
  case untouched =>
    intro hs
    have hs₁ := not_starts_next next?_clean hs
    have hs₂ := not_starts_next next?_snapshotBefore hs₁
    have hs₃ := not_starts_next next?_compile hs₂
    rw [hearly hs₃, stateAt_next_of_not_starts next?_compile hs₂,
      stateAt_next_of_not_starts next?_snapshotBefore hs₁,
      stateAt_next_of_not_starts next?_clean hs, files_clean hquiet]
  case cleaned =>
    intro hs hnot
    rw [hearly (not_starts_next next?_compile hnot), stateAt_next_of_not_starts next?_compile hnot,
      files_compile hquiet hs]
  case emitted =>
    intro hs hnot
    rw [hearly hnot, files_merge hquiet hs]
  case unmerged =>
    intro err hs herr
    rw [hlate hs, ← hmerge hs]
    exact grown_of_merge_error (Prod.ext herr rfl)
  case merged =>
    intro hs hok
    rw [hlate hs, ← hmerge hs]
    exact replaced_of_merge_ok (Prod.ext hok rfl)
  case present =>
    intro hs l hl
    by_cases hm : p.Starts s c fs .merge
    · rw [hlate hm]
      exact isSome_of_merge (Prod.ext rfl rfl) (by rwa [hmerge hm])
    · rwa [hearly hm, files_merge hquiet hs]

def Sample.alarm : Plugin :=
  ⟨"alarm", fun _ => pure (), fun phase => if phase = Stage.merge.name then throw (.other "alarm") else pure ()⟩

theorem Sample.alarm_quiet : Sample.alarm.Quiet := by
  intro phase
  constructor
  · intro st
    rfl
  · intro st
    rw [Sample.alarm]
    dsimp only
    split <;> rfl

theorem run_error_intact_sample : ∃ e final,
    (Pipeline.mk Sample.emit [Sample.alarm] []).run .inOrder Sample.config Sample.stale = (.error e, final) ∧
      Intact ⟨Sample.emit, [Sample.alarm], []⟩ .inOrder Sample.config Sample.stale final.files := by
  have hfails : ((Pipeline.mk Sample.emit [Sample.alarm] []).run .inOrder Sample.config Sample.stale).1.toBool =
      false := by
    decide +kernel
  have hprune : ¬(Pipeline.mk Sample.emit [Sample.alarm] []).Starts .inOrder Sample.config Sample.stale .prune := by
    decide +kernel
  obtain ⟨e, he⟩ := Pass.exists_eq_error_of_toBool hfails
  exact ⟨e, _, he, run_error_intact (by simpa using Sample.alarm_quiet) he hprune⟩

end Pipeline

end DeclBundle
