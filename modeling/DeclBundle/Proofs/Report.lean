import DeclBundle.CommandLine
import DeclBundle.Proofs.Pass.Outcomes

/-!
What a report says of the removals of a pass. No path that was to be removed is missing from it, and
whatever is still there is among the failures, each of which has its warning.
-/

namespace DeclBundle

open FileSystem Pipeline Stage

variable {compiler : Compiler} {launch : Launcher} {s : Schedule} {c : Config} {fs tree : FileSystem} {done : State}
  {before after : PathSet} {found : List Path} {texts : List String} {source : Option Path} {loaded : Loaded}
  {report : BundleReport} {p : Path}

namespace BundleReport

def staleWarning (failure : Path × IoError) : String :=
  "could not remove stale output: " ++ failure.2.message ++ " (" ++ failure.1.text ++ ")"

def removalWarning (failure : Path × String) : String :=
  "could not remove: " ++ failure.2 ++ " (" ++ failure.1.text ++ ")"

/-- A report accounts for a pass that has found some paths left over and ends with a tree. `stale` is the
failure to remove what an earlier pass had left, if there was one. -/
structure Accounts (report : BundleReport) (stale : Option (Path × IoError)) (leftover : PathSet) (tree : FileSystem) :
    Prop where
  removed_increasing : report.removed.Pairwise fun p q => compare p q = .lt
  failed_increasing : (report.failed.map Prod.fst).Pairwise fun p q => compare p q = .lt
  apart : ∀ p ∈ report.removed, ∀ failure ∈ report.failed, p.same failure.1 = false
  mem_roots_iff : ∀ p, p ∈ leftover.roots.toList ↔ p ∈ report.removed ∨ ∃ error, (p, error) ∈ report.failed
  failed_of_left : ∀ p ∈ leftover.roots.toList, tree.entryAt? p ≠ none → ∃ error, (p, error) ∈ report.failed
  within_failed : ∀ p ∈ leftover.toList, tree.entryAt? p ≠ none → ∃ failure ∈ report.failed, p.isWithin failure.1 = true
  warnings_eq : report.warnings = (stale.map staleWarning).toList ++
    (if report.declarations = [] then ["no declaration files were emitted; the bundle is empty"] else []) ++
      report.failed.map removalWarning

theorem map_fst_failed (source : Option Path) (c : Context) :
    (ofContext source c).failed.map Prod.fst = c.failed.map Prod.fst := by
  rw [ofContext, List.map_map]
  rfl

theorem mem_failed_ofContext {err : IoError} {ctx : Context} (h : (p, err) ∈ ctx.failed) :
    (p, err.message) ∈ (ofContext source ctx).failed :=
  List.mem_map.2 ⟨(p, err), h, rfl⟩

theorem map_remark_remark? (outcome : Path × Removal) : (remark? outcome).map Diagnostic.remark =
    outcome.2.error?.map fun e => removalWarning (outcome.1, e.message) := by
  rw [remark?, Option.map_map]
  rfl

theorem map_remark_removals (source : Option Path) (ctx : Context) :
    (ctx.removals.filterMap remark?).map Diagnostic.remark = (ofContext source ctx).failed.map removalWarning := by
  rw [ofContext, Context.failed, List.map_map, List.map_filterMap, List.map_filterMap]
  simp only [map_remark_remark?, Option.map_map]
  rfl

theorem warnings_ofContext (h : (plain compiler).run s c fs = (.ok (), done)) (source : Option Path) :
    (ofContext source done.context).warnings = ((staleFailure? c fs).map staleWarning).toList ++
      (if done.context.declarations = [] then ["no declaration files were emitted; the bundle is empty"] else []) ++
        (ofContext source done.context).failed.map removalWarning := by
  have hstale : ((staleFailure? c fs).map staleRemark).toList.map Diagnostic.remark =
      ((staleFailure? c fs).map staleWarning).toList := by
    cases staleFailure? c fs <;> rfl
  have hempty : (if done.context.declarations = [] then [noInputs] else []).map Diagnostic.remark =
      if done.context.declarations = [] then ["no declaration files were emitted; the bundle is empty"] else [] := by
    split <;> rfl
  change done.context.warnings.map Diagnostic.remark = _
  rw [warnings_of_run h, List.map_append, List.map_append, hstale, hempty, map_remark_removals source]

theorem accounts_of_success (h : (plain compiler).run s c fs = (.ok (), done))
    (hs : Success compiler s c fs done before after found texts) (source : Option Path) :
    (ofContext source done.context).Accounts (staleFailure? c fs) (PathSet.deletionSet before after c.bundlePath)
      done.files := by
  have hroots := hs.map_fst_removals
  have hincreasing := (PathSet.deletionSet before after c.bundlePath).roots.increasing
  have hmem {p : Path} {error : String} (hp : (p, error) ∈ (ofContext source done.context).failed) :
      p ∈ done.context.failed.map Prod.fst := by
    rw [← map_fst_failed source]
    exact List.mem_map_of_mem hp
  have hperm := done.context.removed_append_failed_perm
  rw [hroots] at hperm
  have hleft {p : Path} (hp : p ∈ (PathSet.deletionSet before after c.bundlePath).toList)
      (hne : done.files.entryAt? p ≠ none) : ∃ q ∈ (PathSet.deletionSet before after c.bundlePath).roots.toList,
        p.isWithin q = true ∧ ∃ error, (q, error) ∈ (ofContext source done.context).failed := by
    obtain ⟨e, he⟩ := Option.ne_none_iff_exists'.1 hne
    obtain ⟨q, hq, hwithin, err, herr⟩ := hs.exists_failed_of_left hp he
    exact ⟨q, hq, hwithin, err.message, mem_failed_ofContext herr⟩
  constructor
  case removed_increasing =>
    refine hincreasing.sublist ?_
    rw [← hroots]
    exact done.context.removed_sublist
  case failed_increasing =>
    rw [map_fst_failed]
    refine hincreasing.sublist ?_
    rw [← hroots]
    exact done.context.failed_sublist
  case apart =>
    rintro p hp ⟨q, error⟩ hq
    obtain ⟨-, -, hne⟩ := List.nodup_append.1 (hperm.nodup_iff.2 (PathSet.nodup _))
    rw [Bool.eq_false_iff, ne_eq, Path.same_iff]
    intro hsame
    apply hne p hp q (hmem hq)
    exact PathSet.eq_of_components (hperm.subset (List.mem_append_left _ hp))
      (hperm.subset (List.mem_append_right _ (hmem hq))) hsame
  case mem_roots_iff =>
    intro p
    rw [← hperm.mem_iff, List.mem_append, ← map_fst_failed source, List.mem_map]
    apply or_congr_right
    constructor
    · rintro ⟨⟨q, error⟩, hq, rfl⟩
      exact ⟨error, hq⟩
    · rintro ⟨error, hq⟩
      exact ⟨_, hq, rfl⟩
  case failed_of_left =>
    intro p hp hne
    obtain ⟨q, hq, hwithin, herror⟩ := hleft (PathSet.mem_of_mem_roots hp) hne
    obtain rfl := PathSet.eq_of_isWithin_root hp hq hwithin
    exact herror
  case within_failed =>
    intro p hp hne
    obtain ⟨q, -, hwithin, error, herror⟩ := hleft hp hne
    exact ⟨(q, error), herror, hwithin⟩
  case warnings_eq => exact warnings_ofContext h source

end BundleReport

open CommandLine

/-- The report of a pass that has succeeded tells of every path that was to be removed, once and in order, and
what is still there is told of as a failure and warned of. -/
theorem bundle_accounts (h : bundle fs launch s loaded = (tree, .ok report)) : ∃ done before after,
    (plain (loaded.config.compiler.compiler launch s)).run s loaded.config fs = (.ok (), done) ∧
    done.files = tree ∧ report = .ofContext loaded.source done.context ∧
    done.context.before = some before ∧ done.context.after = some after ∧
    report.Accounts (staleFailure? loaded.config fs) (PathSet.deletionSet before after loaded.config.bundlePath) tree := by
  rw [bundle] at h
  obtain ⟨⟨e | ⟨⟩, done⟩, hrun⟩ : ∃ r, (plain (loaded.config.compiler.compiler launch s)).run s loaded.config fs = r :=
    ⟨_, rfl⟩
  · rw [hrun] at h
    cases h
  · rw [hrun] at h
    cases h
    obtain ⟨before, after, found, texts, hs⟩ := exists_success hrun
    exact ⟨done, before, after, hrun, rfl, rfl, hs.before_eq, hs.after_eq,
      BundleReport.accounts_of_success hrun hs loaded.source⟩

namespace BundleReport.Sample

open Pipeline.Sample

def entryPoint : Name := ⟨"main.ts", by decide⟩
def script : Name := ⟨"index.js", by decide⟩

def rebundling : Config :=
  { Pipeline.Sample.config with clean := .bundle }

def occupied : FileSystem :=
  let fs := (FileSystem.empty.put [src] (.directory 0o755)).put [src, entryPoint] (.file .empty 0o644)
  -- a file stands where the output directory should be
  fs.put [out] (.file .empty 0o644)

def scripting : Launcher := fun _ _ fs =>
  let fs := (fs.put [out] (.directory 0o755)).put [out, lib] (.directory 0o755)
  ((fs.put [out, lib, script] (.file .empty 0o644)).put [out, script] (.file .empty 0o644),
    .ok ⟨.exited 0, .empty, .empty⟩)

def failure : Path × IoError :=
  (⟨"/out/types.d.ts"⟩, .os .notDirectory)

end BundleReport.Sample

open BundleReport in
theorem bundle_accounts_sample : ∃ tree report before after,
    bundle Sample.occupied Sample.scripting .inOrder ⟨none, Sample.rebundling⟩ = (tree, .ok report) ∧
    report.removed = [⟨"/out/index.js"⟩, ⟨"/out/lib"⟩] ∧ report.failed = [] ∧
    report.warnings = ["could not remove stale output: Not a directory (os error 20) (/out/types.d.ts)",
      "no declaration files were emitted; the bundle is empty"] ∧
    report.Accounts (some Sample.failure) (PathSet.deletionSet before after Sample.rebundling.bundlePath) tree := by
  have hok : (bundle Sample.occupied Sample.scripting .inOrder ⟨none, Sample.rebundling⟩).2.toOption.any
      (fun report => report.removed = [⟨"/out/index.js"⟩, ⟨"/out/lib"⟩] ∧ report.failed = [] ∧
        report.warnings = ["could not remove stale output: Not a directory (os error 20) (/out/types.d.ts)",
          "no declaration files were emitted; the bundle is empty"]) = true := by
    decide +kernel
  have hstale : staleFailure? Sample.rebundling Sample.occupied = some Sample.failure := by decide +kernel
  rcases hrun : bundle Sample.occupied Sample.scripting .inOrder ⟨none, Sample.rebundling⟩ with ⟨tree, e | report⟩
  · rw [hrun] at hok
    cases hok
  · rw [hrun] at hok
    obtain ⟨hremoved, hfailed, hwarnings⟩ := of_decide_eq_true hok
    obtain ⟨-, before, after, -, -, -, -, -, haccounts⟩ := bundle_accounts hrun
    rw [hstale] at haccounts
    exact ⟨tree, report, before, after, rfl, hremoved, hfailed, hwarnings, haccounts⟩

end DeclBundle
