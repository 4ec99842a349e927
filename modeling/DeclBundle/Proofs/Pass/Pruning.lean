import DeclBundle.Proofs.Pass.Crew

/-!
The last stage of a pass removes the roots of what is to go, all at the same time. The roots of a
directory that no link leads off the way to are places apart, and so the stage ends in one state,
whatever its tasks do first.
-/

namespace DeclBundle

open FileSystem

variable {start fs fs' : FileSystem} {places places' : List Location} {outcomes outcomes' : List (Path × Removal)}
  {s : Schedule} {compiler : Compiler} {before after set : PathSet} {bundle p : Path} {base : Location} {st : State}

namespace FileSystem

theorem Cleared.perm (h : start.Cleared places fs outcomes) (hperm : places.Perm places') :
    start.Cleared places' fs outcomes where
  thinned := h.thinned
  get?_eq k := by simp only [h.get?_eq, hperm.mem_iff]
  paths := h.paths.trans (hperm.map _)
  outcomes := h.outcomes

theorem Cleared.unique (h : start.Cleared places fs outcomes) (h' : start.Cleared places fs' outcomes') : fs = fs' :=
  h.thinned.eq_of_get?_eq h'.thinned fun k => (h.get?_eq k).trans (h'.get?_eq k).symm

end FileSystem

namespace Stage

theorem isThinned_removeAll (paths : List Path) (fs : FileSystem) : IsThinned fs (removeAll paths fs).1 := by
  induction paths generalizing fs with
  | nil => exact .refl fs
  | cons p paths ih => exact (isThinned_remove fs p).trans (ih _)

theorem cleared_removeAll (hs : fs.Scattered places) :
    fs.Cleared places (removeAll (places.map Location.path) fs).1 (removeAll (places.map Location.path) fs).2 := by
  obtain ⟨hdone, hget⟩ := removeAll_paths hs.stands hs.not_prefix
  refine ⟨isThinned_removeAll _ fs, hget, ?_, ?_⟩
  · rw [map_fst_removeAll]
  · rw [hdone, List.forall_mem_map]
    intro l _
    rfl

theorem sortRemovals_eq (h : fs.Cleared places fs' outcomes) (hset : set.toList = places.map Location.path) :
    sortRemovals outcomes = set.toList.map fun p => (p, outcome p) := by
  have hself : ∀ x ∈ sortRemovals outcomes, (x.1, outcome x.1) = id x := by
    intro x hx
    rw [← h.outcomes x ((sortRemovals_perm outcomes).mem_iff.1 hx)]
    rfl
  rw [← map_fst_sortRemovals (hset ▸ h.paths), List.map_map, Function.comp_def, List.map_congr_left hself, List.map_id]

theorem perm_of_map_path (h : (places.map Location.path).Perm (places'.map Location.path)) : places.Perm places' := by
  have hlocate := h.map (Path.locate [])
  simpa [List.map_map, Function.comp_def] using hlocate

theorem cleared_doomed (hsnap : fs.snapshot s base.path = .ok after) (hfree : fs.FreeOfLinks base)
    (hplaces : roots before after bundle = places.map Location.path) (s : Schedule) : fs.Cleared places
      (removeAll (doomed s before after bundle) fs).1 (removeAll (doomed s before after bundle) fs).2 := by
  have hperm := doomed_perm s before after bundle
  obtain ⟨arranged, harranged, hs⟩ := exists_scattered hsnap hfree hperm
  rw [harranged] at hperm ⊢
  exact (cleared_removeAll hs).perm (perm_of_map_path (hplaces ▸ hperm))

def settled (fs : FileSystem) (outcomes : List (Path × Removal)) (st : State) : State :=
  { st with files := fs, context := pruned (sortRemovals outcomes) st.context }

theorem settled_eq (h : st.files.Cleared places fs outcomes) (h' : st.files.Cleared places fs' outcomes')
    (hset : set.toList = places.map Location.path) : settled fs outcomes st = settled fs' outcomes' st := by
  rw [settled, settled, h.unique h', sortRemovals_eq h hset, sortRemovals_eq h' hset]

def crew (before after : PathSet) (st : State) : Crew :=
  .spawn (roots before after st.context.config.bundlePath) st.files

/-- What is pruned is pruned in any order, and every run of the tasks ends in the one state. -/
theorem prune_commutes (hbefore : st.context.before = some before) (hafter : st.context.after = some after)
    (hsnap : st.files.snapshot s st.context.config.outDir.path = .ok after)
    (hfree : st.files.FreeOfLinks st.context.config.outDir) : ∃ done : State,
    (∀ s compiler, (Stage.run s compiler .prune).run st = (.ok (), done)) ∧
    (∀ n c, Steps Crew.Step (crew before after st) n c → n ≤ (crew before after st).cost ∧
      (∃ m last, Steps Crew.Step c m last ∧ last.pending = []) ∧
      (c.pending = [] → settled c.files c.joined st = done)) ∧
    done.context.removals.map Prod.fst = roots before after st.context.config.bundlePath ∧
    (done.context.removals.Pairwise fun a b => compare a.1 b.1 = .lt) ∧
    done.context.diagnostics = st.context.diagnostics ++ done.context.removals.filterMap remark? ∧
    done.context.before = some before ∧ done.context.after = some after := by
  obtain ⟨places, hplaces, hs⟩ := exists_scattered hsnap hfree (.refl (roots before after st.context.config.bundlePath))
  have hsequence := cleared_doomed hsnap hfree hplaces
  obtain ⟨⟨fs, outcomes⟩, hfirst⟩ : ∃ x : FileSystem × List (Path × Removal), st.files.Cleared places x.1 x.2 :=
    ⟨_, hsequence .inOrder⟩
  have hremovals : (settled fs outcomes st).context.removals =
      (roots before after st.context.config.bundlePath).map fun p => (p, outcome p) :=
    sortRemovals_eq hfirst hplaces
  refine ⟨settled fs outcomes st, ?_, ?_, ?_, ?_, rfl, hbefore, hafter⟩
  · intro s compiler
    rw [settled_eq hfirst (hsequence s) hplaces]
    exact run_prune hbefore hafter
  · intro n c hc
    have hlength := hc.length_le fun _ _ => Crew.Step.decreases
    refine ⟨by omega, ?_, ?_⟩
    · exact Steps.exists_end .none (fun _ _ => Crew.Step.decreases) fun c => c.exists_step
    · intro hdone
      rw [crew, hplaces] at hc
      exact settled_eq ((Crew.Orderly.steps hs hc).cleared hs hdone) hfirst hplaces
  · rw [hremovals, List.map_map]
    exact List.map_id _
  · rw [hremovals, List.pairwise_map]
    exact (PathSet.deletionSet before after st.context.config.bundlePath).roots.increasing

namespace Sample

open Pipeline.Sample

def full : FileSystem :=
  (emit [src] [out] .empty).1.put [out, a] (.file "export type A = 2".toUTF8 0o644)

def due (after : PathSet) : State :=
  ⟨full, { Context.new config with before := some .empty, after := some after }, []⟩

end Sample

theorem prune_commutes_sample : ∃ after done,
    Sample.full.snapshot .inOrder Pipeline.Sample.config.outDir.path = .ok after ∧
    (∀ s compiler, (Stage.run s compiler .prune).run (Sample.due after) = (.ok (), done)) ∧
    done.context.removals.map (·.1.text) = ["/out/a.d.ts", "/out/lib"] := by
  have hroots : ((Sample.full.snapshot .inOrder Pipeline.Sample.config.outDir.path).toOption.map fun after =>
      (roots .empty after Pipeline.Sample.config.bundlePath).map Path.text) = some ["/out/a.d.ts", "/out/lib"] := by
    decide +kernel
  have hfree : Sample.full.FreeOfLinks Pipeline.Sample.config.outDir := by
    intro k _ text
    exact get?_ne_link (by decide +kernel) k text
  cases hsnap : Sample.full.snapshot .inOrder Pipeline.Sample.config.outDir.path with
  | error err =>
    rw [hsnap] at hroots
    cases hroots
  | ok after =>
    rw [hsnap] at hroots
    have hbefore : (Sample.due after).context.before = some .empty := rfl
    obtain ⟨done, hrun, -, hpaths, -⟩ := prune_commutes hbefore rfl hsnap hfree
    refine ⟨after, done, rfl, hrun, ?_⟩
    have htexts := congrArg (List.map Path.text) hpaths
    rw [List.map_map] at htexts
    exact htexts.trans (Option.some.inj hroots)

end Stage

end DeclBundle
