import DeclBundle.Proofs.FileSystem.Leftover
import DeclBundle.Proofs.FileSystem.Snapshots
import DeclBundle.Proofs.Pass.Removals
import DeclBundle.Proofs.Pass.Success

/-!
What a pass tells of its removals. Every path that was to be removed has one outcome, in the order of
paths, and no outcome hides that something is left. A pass warns of what it could not remove, before
the compiler and after it, and of a bundle without declarations, and of nothing else.
-/

namespace DeclBundle

open FileSystem

namespace Stage

open Pass

variable {s : Schedule} {compiler : Compiler} {stage next : Stage} {st st' : State} {paths : List Path} {p : Path}
  {r : Removal} {outcome : Path × Removal} {outcomes : List (Path × Removal)} {fs : FileSystem} {k : Location}
  {e : Entry} {set : PathSet}

theorem get?_of_removeAll (hpaths : ∀ p ∈ paths, ∃ d n, p = Location.path (d ++ [n]))
    (h : (removeAll paths fs).1.get? k = some e) : fs.get? k = some e := by
  induction paths generalizing fs with
  | nil => exact h
  | cons p paths ih =>
    obtain ⟨d, n, rfl⟩ := hpaths p List.mem_cons_self
    rw [removeAll] at h
    have hmid := ih (fun q hq => hpaths q (List.mem_cons_of_mem _ hq)) h
    exact get?_of_remove hmid

theorem isFailed_of_left (hpaths : ∀ p ∈ paths, ∃ d n, p = Location.path (d ++ [n]))
    (hr : (p, r) ∈ (removeAll paths fs).2) (he : (removeAll paths fs).1.entryAt? p = some e) : r.isFailed = true := by
  induction paths generalizing fs with
  | nil => cases hr
  | cons q paths ih =>
    have hrest : ∀ p ∈ paths, ∃ d n, p = Location.path (d ++ [n]) := fun p hp => hpaths p (List.mem_cons_of_mem _ hp)
    rw [removeAll] at hr he
    rcases List.mem_cons.1 hr with heq | hr
    · obtain ⟨rfl, rfl⟩ := Prod.mk.inj heq
      obtain ⟨d, n, rfl⟩ := hpaths p List.mem_cons_self
      -- nothing comes back, so it was there right after the removal
      have hleft := entryAt?_mono (fun _ _ => get?_of_removeAll hrest) he
      cases herr : (fs.remove (Location.path (d ++ [n]))).2.error? with
      | none =>
        rw [entryAt?_remove herr] at hleft
        cases hleft
      | some err => rw [Removal.isFailed, herr, Option.isSome_some]
    · exact ih hrest hr he

theorem pairwise_placeRemoval (h : outcomes.Pairwise fun a b => (compare a.1 b.1).isLE = true) :
    (placeRemoval outcome outcomes).Pairwise fun a b => (compare a.1 b.1).isLE = true := by
  induction outcomes with
  | nil => simp [placeRemoval]
  | cons q rest ih =>
    obtain ⟨hq, hrest⟩ := List.pairwise_cons.1 h
    rw [placeRemoval]
    split
    next hle =>
      apply List.pairwise_cons.2
      refine ⟨fun x hx => ?_, h⟩
      rcases List.mem_cons.1 hx with rfl | hx
      · exact hle
      · exact Std.TransCmp.isLE_trans hle (hq x hx)
    next hnot =>
      have hgt : compare outcome.1 q.1 = .gt := by
        cases hc : compare outcome.1 q.1 <;> simp_all
      apply List.pairwise_cons.2
      refine ⟨fun x hx => ?_, ih hrest⟩
      rcases List.mem_cons.1 ((placeRemoval_perm outcome rest).mem_iff.1 hx) with rfl | hx
      · rw [Std.OrientedCmp.lt_of_gt hgt]
        rfl
      · exact hq x hx

theorem pairwise_sortRemovals (outcomes : List (Path × Removal)) :
    (sortRemovals outcomes).Pairwise fun a b => (compare a.1 b.1).isLE = true := by
  induction outcomes with
  | nil => exact .nil
  | cons outcome rest ih => exact pairwise_placeRemoval ih

theorem map_fst_sortRemovals (h : (outcomes.map Prod.fst).Perm set.toList) :
    (sortRemovals outcomes).map Prod.fst = set.toList := by
  have hperm : ((sortRemovals outcomes).map Prod.fst).Perm set.toList := ((sortRemovals_perm outcomes).map _).trans h
  have hsorted : ((sortRemovals outcomes).map Prod.fst).Pairwise fun p q => (compare p q).isLE = true :=
    List.pairwise_map.2 (pairwise_sortRemovals outcomes)
  have hset : set.toList.Pairwise fun p q => (compare p q).isLE = true := by
    apply set.increasing.imp
    intro p q hlt
    rw [hlt]
    rfl
  refine List.Perm.eq_of_pairwise ?_ hsorted hset hperm
  intro p q hp hq hpq hqp
  apply PathSet.eq_of_components (hperm.mem_iff.1 hp) hq
  exact Path.compare_eq_iff.1 (Std.OrientedCmp.isLE_antisymm hpq hqp)

def staleFailure? (c : Config) (fs : FileSystem) : Option (Path × IoError) :=
  (stale? c).bind fun path => (fs.remove path).2.error?.map (path, ·)

def staleRemark (failure : Path × IoError) : Diagnostic :=
  ⟨.warning, clean.name, "could not remove stale output: " ++ failure.2.message, some failure.1⟩

theorem warnings_clean (st : State) : (runClean.run st).2.context.warnings =
    st.context.warnings ++ ((staleFailure? st.context.config st.files).map staleRemark).toList := by
  rw [run_clean_eq, staleFailure?]
  cases stale? st.context.config with
  | none => simp
  | some path =>
    cases herr : (st.files.remove path).2.error? with
    | none => simp [swept, herr, Context.warnings]
    | some err => simp [swept, herr, Context.warnings, Context.note, staleRemark, Diagnostic.isWarning]

theorem warnings_merge (h : (runMerge s).run st = (.ok (), st')) : st'.context.warnings =
    st.context.warnings ++ if st'.context.declarations = [] then [noInputs] else [] := by
  rw [run_merge_listed] at h
  split at h
  · cases h
  next found _ =>
    rw [run_bundling] at h
    split at h
    · cases h
    · split at h
      · cases h
      · cases h
        rw [listed]
        split
        next hempty => simp [written, hempty, Context.warnings, Context.note, noInputs, Diagnostic.isWarning]
        next hsome => simp [written, hsome, Context.warnings, Context.note, Diagnostic.isWarning]

theorem filter_remarks (outcomes : List (Path × Removal)) :
    (outcomes.filterMap remark?).filter Diagnostic.isWarning = outcomes.filterMap remark? := by
  apply List.filter_eq_self.2
  intro d hd
  obtain ⟨outcome, -, hd⟩ := List.mem_filterMap.1 hd
  obtain ⟨err, -, rfl⟩ := Option.map_eq_some_iff.1 hd
  rfl

theorem warnings_pruned (outcomes : List (Path × Removal)) (c : Context) :
    (pruned outcomes c).warnings = c.warnings ++ outcomes.filterMap remark? := by
  rw [pruned, Context.warnings, Context.warnings, List.filter_append, filter_remarks]

def Silent (stage : Stage) : Prop :=
  stage = snapshotBefore ∨ stage = compile ∨ stage = snapshotAfter

theorem Silent.keeps (hs : stage.Silent) (h : (stage.run s compiler).run st = (.ok (), st')) :
    st'.context.warnings = st.context.warnings ∧ st'.context.declarations = st.context.declarations := by
  rcases hs with rfl | rfl | rfl
  · change (runSnapshotBefore s).run st = _ at h
    rw [run_snapshotBefore] at h
    split at h
    · cases h
      exact ⟨rfl, rfl⟩
    · cases h
  · change (runCompile compiler).run st = _ at h
    rw [run_compile] at h
    split at h
    · cases h
      exact ⟨rfl, rfl⟩
    · cases h
  · change (runSnapshotAfter s).run st = _ at h
    rw [run_snapshotAfter] at h
    split at h
    · cases h
      exact ⟨rfl, rfl⟩
    · cases h

end Stage

namespace Context

theorem map_fst_failed (c : Context) :
    c.failed.map Prod.fst = (c.removals.filter fun (_, r) => r.isFailed).map Prod.fst := by
  rw [failed]
  induction c.removals with
  | nil => rfl
  | cons outcome rest ih =>
    obtain ⟨path, removal⟩ := outcome
    cases herr : removal.error? <;> simp [herr, Removal.isFailed, ih]

theorem removed_append_failed_perm (c : Context) :
    (c.removed ++ c.failed.map Prod.fst).Perm (c.removals.map Prod.fst) := by
  rw [map_fst_failed, removed, ← List.map_append]
  apply List.Perm.map
  exact List.perm_append_comm.trans (List.filter_append_perm _ _)

theorem removed_sublist (c : Context) : c.removed.Sublist (c.removals.map Prod.fst) :=
  List.filter_sublist.map _

theorem failed_sublist (c : Context) : (c.failed.map Prod.fst).Sublist (c.removals.map Prod.fst) := by
  rw [map_fst_failed]
  exact List.filter_sublist.map _

end Context

namespace Pipeline

open Stage

variable {compiler : Compiler} {s : Schedule} {c : Config} {fs : FileSystem} {done : State} {stage next : Stage}
  {before after : PathSet} {found : List Path} {texts : List String} {p : Path} {r : Removal} {e : Entry}

theorem kept_next (hs : stage.Silent) (h : stage.next? = some next) (hnext : (plain compiler).Starts s c fs next) :
    (plain compiler).Starts s c fs stage ∧
      ((plain compiler).stateAt s c fs next).context.warnings =
        ((plain compiler).stateAt s c fs stage).context.warnings ∧
      ((plain compiler).stateAt s c fs next).context.declarations =
        ((plain compiler).stateAt s c fs stage).context.declarations := by
  obtain ⟨hstage, mid, hrun, hstate⟩ := exists_run_stage h hnext
  have hkept := hs.keeps hrun
  rw [hstate]
  exact ⟨hstage, hkept⟩

/-- A pass warns of stale output that it could not remove, of no declarations, and of each path that it
could not remove in the end. -/
theorem warnings_of_run (h : (plain compiler).run s c fs = (.ok (), done)) : done.context.warnings =
    ((staleFailure? c fs).map staleRemark).toList ++ (if done.context.declarations = [] then [noInputs] else []) ++
      done.context.removals.filterMap remark? := by
  obtain ⟨hprune, hrun⟩ := run_plain_eq_ok h
  obtain ⟨before, after, found, texts, -, -, hb, ha, -⟩ := start_prune hprune
  have hpruned := run_prune (s := s) hb ha
  change (runPrune s).run _ = _ at hrun
  rw [hpruned] at hrun
  cases hrun
  obtain ⟨hafter, hwarnings, hdeclarations⟩ := kept_next (.inr (.inr rfl)) next?_snapshotAfter hprune
  obtain ⟨hmerge, mid, hmerged, hstate⟩ := exists_run_stage next?_merge hafter
  obtain ⟨hcompile, hcompiled, -⟩ := kept_next (.inr (.inl rfl)) next?_compile hmerge
  obtain ⟨hbefore, hsnapped, -⟩ := kept_next (.inl rfl) next?_snapshotBefore hcompile
  obtain ⟨-, start, hcleaned, hstale⟩ := exists_run_stage next?_clean hbefore
  have hclean := warnings_clean ((plain compiler).stateAt s c fs .clean)
  change runClean.run _ = _ at hcleaned
  rw [hcleaned, stateAt_clean_plain] at hclean
  have hstart : ((plain compiler).stateAt s c fs .merge).context.warnings =
      ((staleFailure? c fs).map staleRemark).toList := by
    rw [hcompiled, hsnapped, hstale]
    exact hclean
  have hnoted := warnings_merge hmerged
  rw [hstart] at hnoted
  have hend : ((plain compiler).stateAt s c fs .prune).context.warnings =
      ((staleFailure? c fs).map staleRemark).toList ++
        if ((plain compiler).stateAt s c fs .prune).context.declarations = [] then [noInputs] else [] := by
    rw [hwarnings, hdeclarations, hstate]
    exact hnoted
  rw [warnings_pruned, hend]
  rfl

theorem Success.map_fst_removals (hs : Success compiler s c fs done before after found texts) :
    done.context.removals.map Prod.fst = (PathSet.deletionSet before after c.bundlePath).roots.toList := by
  rw [hs.removals_eq]
  apply map_fst_sortRemovals
  rw [map_fst_removeAll]
  exact doomed_perm s before after c.bundlePath

theorem Success.exists_name_of_mem_after (hs : Success compiler s c fs done before after found texts)
    (hp : p ∈ after.toList) : ∃ d n, p = Location.path (d ++ [n]) := by
  obtain ⟨rel, hrel, rfl⟩ := (closed_of_snapshot hs.revisited).below p hp
  obtain ⟨front, n, rfl⟩ := (List.eq_nil_or_concat rel).resolve_left hrel
  exact ⟨c.outDir ++ front, n, by rw [List.concat_eq_append, List.append_assoc]⟩

theorem Success.isFailed_of_left (hs : Success compiler s c fs done before after found texts)
    (hr : (p, r) ∈ done.context.removals) (he : done.files.entryAt? p = some e) : r.isFailed = true := by
  rw [hs.removals_eq] at hr
  rw [hs.files_eq] at he
  refine Stage.isFailed_of_left ?_ ((sortRemovals_perm _).mem_iff.1 hr) he
  intro q hq
  exact hs.exists_name_of_mem_after (mem_doomed hq).1

theorem Success.exists_failed_of_left (hs : Success compiler s c fs done before after found texts)
    (hp : p ∈ (PathSet.deletionSet before after c.bundlePath).toList) (he : done.files.entryAt? p = some e) :
    ∃ q ∈ (PathSet.deletionSet before after c.bundlePath).roots.toList, p.isWithin q = true ∧
      ∃ err, (q, err) ∈ done.context.failed := by
  obtain ⟨q, hq, hwithin⟩ := PathSet.exists_root hp
  obtain ⟨k, m, rfl⟩ := hs.exists_name_of_mem_after (PathSet.mem_deletionSet_iff.1 hp).1
  obtain ⟨d, n, rfl⟩ := hs.exists_name_of_mem_after (PathSet.mem_deletionSet_iff.1 (PathSet.mem_of_mem_roots hq)).1
  obtain ⟨rest, hrest⟩ := Location.isWithin_path_iff.1 hwithin
  rw [← hrest] at he
  obtain ⟨e', he'⟩ := exists_entryAt?_above he
  rw [← hs.map_fst_removals] at hq
  obtain ⟨⟨_, r⟩, hr, rfl⟩ := List.mem_map.1 hq
  obtain ⟨err, herr⟩ := Option.isSome_iff_exists.1 (hs.isFailed_of_left hr he')
  refine ⟨_, by rwa [← hs.map_fst_removals], hwithin, err, ?_⟩
  exact List.mem_filterMap.2 ⟨_, hr, by simp [herr]⟩

end Pipeline

end DeclBundle
