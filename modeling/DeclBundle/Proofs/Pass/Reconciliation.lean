import DeclBundle.Proofs.FileSystem.Reading
import DeclBundle.Proofs.Pass.Sweep

namespace DeclBundle.Pipeline

open FileSystem Stage

variable {compiler : Compiler} {s : Schedule} {c : Config} {fs : FileSystem} {done : State}
  {before after : PathSet} {found : List Path} {texts : List String} {q : Path}

def kept (c : Config) (before after : PathSet) : PathSet :=
  (after.filter before.contains).insert c.bundlePath

theorem mem_kept_iff (h : Closed c.outDir after) :
    q ∈ (kept c before after).toList ↔ (q ∈ after.toList ∧ before.contains q = true) ∨ q = c.bundlePath := by
  have hspelled : (after.filter before.contains).contains c.bundlePath = true →
      c.bundlePath ∈ (after.filter before.contains).toList := by
    intro hc
    obtain ⟨p, hp, hsame⟩ := PathSet.contains_iff.1 hc
    obtain ⟨rel, -, rfl⟩ := h.below p (PathSet.mem_filter_iff.1 hp).1
    rwa [Config.bundlePath, Location.same_path_iff.1 (Path.same_iff.2 hsame)]
  rw [kept, PathSet.mem_insert_of_spelled hspelled, PathSet.mem_filter_iff]

theorem Success.get?_bundle (hs : Success compiler s c fs done before after found texts)
    (hfree : (compiled compiler s c fs).FreeOfLinks c.outDir) :
    ∃ mode, done.files.get? c.bundle = some (.file (Declaration.merge texts).toUTF8 mode) := by
  obtain ⟨places, -, hw⟩ := hs.exists_swept hfree
  obtain ⟨⟨mode, hbundle⟩, -, -⟩ := hs.merged_eq hfree
  exact ⟨mode, by rw [hw.get?_of_prefix_bundle (List.prefix_refl _), hbundle]⟩

theorem Success.exists_below_iff (hs : Success compiler s c fs done before after found texts)
    (hfree : (compiled compiler s c fs).FreeOfLinks c.outDir) (hfailed : done.context.failed = []) :
    (∃ e, done.files.Below c.outDir c.outDir q e) ↔ q ∈ (kept c before after).toList := by
  have hclosed : Closed c.outDir before := closed_of_snapshotOrEmpty hs.recorded
  have hclosed' : Closed c.outDir after := closed_of_snapshot hs.revisited
  have hbelow {rel : List Name} (hrel : rel ≠ []) : Location.isBelow (c.outDir ++ rel) c.outDir = true :=
    isBelow_iff_append.2 ⟨rel, hrel, rfl⟩
  rw [mem_kept_iff hclosed']
  constructor
  · rintro ⟨e, rel, hrel, hget, rfl⟩
    obtain ⟨hq, hkept⟩ := (hs.exists_get?_iff hfree hfailed (hbelow hrel)).1 ⟨e, hget⟩
    rcases hkept with hbefore | heq
    · exact .inl ⟨hq, (hclosed.contains_iff _).2 hbefore⟩
    · exact .inr (by rw [heq, Config.bundlePath])
  · rintro (⟨hq, hbefore⟩ | rfl)
    · obtain ⟨rel, hrel, rfl⟩ := hclosed'.below q hq
      obtain ⟨e, he⟩ := (hs.exists_get?_iff hfree hfailed (hbelow hrel)).2
        ⟨hq, .inl ((hclosed.contains_iff _).1 hbefore)⟩
      exact ⟨e, rel, hrel, he, rfl⟩
    · obtain ⟨mode, hget⟩ := hs.get?_bundle hfree
      exact ⟨_, [c.bundleName], by simp, hget, rfl⟩

theorem Success.snapshot_eq (hs : Success compiler s c fs done before after found texts)
    (hfree : (compiled compiler s c fs).FreeOfLinks c.outDir) (hfailed : done.context.failed = []) (s' : Schedule) :
    done.files.snapshot s' c.outDir.path = .ok (kept c before after) := by
  obtain ⟨places, -, hw⟩ := hs.exists_swept hfree
  obtain ⟨-, hfree', -⟩ := hs.merged_eq hfree
  obtain ⟨k, e, hfind, hopen, -⟩ := snapshot_path_eq_ok_iff.1 hs.revisited
  obtain ⟨haccept, hresolve⟩ := find_path_eq_ok_iff.1 hfind
  obtain rfl : k = c.outDir := hfree'.place_eq hresolve
  have hlink : e.isLink = false := by
    cases e with
    | link text => exact absurd (get?_of_resolve hresolve) (hfree' _ (List.prefix_refl _) text)
    | _ => rfl
  have hroot : done.files.get? c.outDir = some e := by
    rw [hw.get?_of_prefix_bundle (List.prefix_append _ _), get?_of_resolve hresolve]
  apply snapshot_path_eq_ok_iff.2
  refine ⟨c.outDir, e, find_path haccept hroot (.inr hlink), ?_, ?_⟩
  · intro rel mode hrel hget
    exact hopen rel mode hrel (hw.get?_before hget)
  · intro q
    exact (hs.exists_below_iff hfree hfailed).symm

/-- What a tree has to show after a pass, given the tree that the compiler has left and what the
pass has recorded. -/
structure Reconciled (c : Config) (tree : FileSystem) (done : State) (before after : PathSet) (bundle : Bundle) :
    Prop where
  untouched : ∀ p ∈ before.toList, p ∈ after.toList → ∃ l e, p = Location.path l ∧ l.isBelow c.outDir = true ∧
    done.files.get? l = some e ∧ (l ≠ c.bundle → tree.get? l = some e)
  bundled : c.bundlePath ∈ after.toList ∧ bundle.path = c.bundlePath ∧
    (∃ mode, done.files.find false c.bundlePath = .ok (c.bundle, .file bundle.content.toUTF8 mode)) ∧
    done.files.read c.bundlePath = .ok bundle.content
  pruned : done.context.failed = [] → ∀ s : Schedule, done.files.snapshot s c.outDir.path = .ok (kept c before after)

theorem run_reconciles (h : (plain compiler).run s c fs = (.ok (), done))
    (hfree : (compiled compiler s c fs).FreeOfLinks c.outDir) : ∃ before after bundle,
    done.context.before = some before ∧ done.context.after = some after ∧ done.context.bundle = some bundle ∧
      Reconciled c (compiled compiler s c fs) done before after bundle := by
  obtain ⟨before, after, found, texts, hs⟩ := exists_success h
  obtain ⟨places, -, hw⟩ := hs.exists_swept hfree
  obtain ⟨⟨_, hbundle⟩, -, hmerged⟩ := hs.merged_eq hfree
  obtain ⟨mode, hdone⟩ := hs.get?_bundle hfree
  obtain ⟨haccept, -⟩ := hs.written_bundle
  have hclosed : Closed c.outDir before := closed_of_snapshotOrEmpty hs.recorded
  refine ⟨before, after, _, hs.before_eq, hs.after_eq, hs.bundle_eq, ?_⟩
  constructor
  case untouched =>
    intro p hp hp'
    obtain ⟨rel, -, rfl⟩ := hclosed.below p hp
    obtain ⟨hl, e, he⟩ := (hs.mem_after hfree _).1 hp'
    refine ⟨_, e, rfl, hl, ?_, ?_⟩
    · rw [hw.get?_of_mem_before hclosed hp, he]
    · intro hne
      rw [← hmerged _ hl hne, he]
  case bundled =>
    refine ⟨(hs.mem_after hfree _).2 ⟨bundle_isBelow c, _, hbundle⟩, rfl, ?_, read_path haccept hdone⟩
    exact ⟨mode, find_path haccept hdone (.inl rfl)⟩
  case pruned => exact hs.snapshot_eq hfree

theorem run_reconciles_sample : ∃ done before after bundle,
    (plain Sample.emit).run .inOrder Sample.config Sample.stale = (.ok (), done) ∧
      done.context.before = some before ∧ done.context.after = some after ∧ done.context.bundle = some bundle ∧
      Reconciled Sample.config (compiled Sample.emit .inOrder Sample.config Sample.stale) done before after bundle := by
  have hdir : (compiled Sample.emit .inOrder Sample.config Sample.stale).isDirectoryAt Sample.config.outDir = true := by
    decide +kernel
  obtain ⟨before, after, bundle, h⟩ := run_reconciles Sample.run_stale (freeOfLinks_of_isDirectoryAt hdir)
  exact ⟨_, before, after, bundle, Sample.run_stale, h⟩

end DeclBundle.Pipeline
