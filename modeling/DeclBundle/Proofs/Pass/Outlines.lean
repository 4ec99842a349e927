import DeclBundle.Proofs.Pass.Emission
import DeclBundle.Proofs.Pass.Merging
import DeclBundle.Proofs.Pass.Reconciliation

namespace DeclBundle.Pipeline

open FileSystem Stage

variable {compiler : Compiler} {s : Schedule} {c : Config} {fs : FileSystem} {done : State}
  {before after : PathSet} {found : List Path} {texts : List String} {files : List Draft} {k l : Location}
  {q : Path} {content : ByteArray}

def Stale (c : Config) (k : Location) : Prop :=
  match c.clean with
  | .outDir => c.outDir <+: k
  | .bundle => c.bundle <+: k
  | .none => False

theorem outline_cleaned (hroot : c.clean = .outDir → c.outDir ≠ []) (ha : accept c.bundlePath = .ok ())
    (hu : fs.Unlinked c.outDir) (k : Location) :
    (Stale c k → (cleaned c fs).outline k = none) ∧ (¬Stale c k → (cleaned c fs).outline k = fs.outline k) := by
  rw [cleaned, stale?, Stale, outline, outline]
  cases hclean : c.clean with
  | outDir =>
    have hget := get?_remove_of_free (accept_path_above ha (List.prefix_append _ _)) (hroot hclean)
      hu.freeOfLinks_self k
    dsimp only
    rw [hget]
    exact ⟨fun h => by rw [if_pos h]; rfl, fun h => by rw [if_neg h]⟩
  | bundle =>
    have hget := get?_remove_of_free ha (by simp [Config.bundle]) (hu.freeOfLinks [c.bundleName]) k
    dsimp only [Config.bundlePath]
    rw [hget]
    exact ⟨fun h => by rw [if_pos h]; rfl, fun h => by rw [if_neg h]⟩
  | none => exact ⟨False.elim, fun _ => rfl⟩

theorem unlinked_cleaned (hroot : c.clean = .outDir → c.outDir ≠ []) (ha : accept c.bundlePath = .ok ())
    (hu : fs.Unlinked c.outDir) : (cleaned c fs).Unlinked c.outDir := by
  intro k hk text hlink
  obtain ⟨hgone, hkept⟩ := outline_cleaned hroot ha hu k
  by_cases h : Stale c k
  · rw [hgone h] at hlink
    cases hlink
  · rw [hkept h] at hlink
    exact hu k hk text hlink

def bundleDraft (c : Config) (content : String) : Draft :=
  ⟨[], c.bundleName, content⟩

theorem place_bundleDraft (c : Config) (content : String) : (bundleDraft c content).place c.outDir = c.bundle := by
  simp [Draft.place, bundleDraft, Config.bundle]

def arranged (c : Config) (files : List Draft) (content : String) (k : Location) (x : Option Entry) : Option Entry :=
  Draft.overlaid c.outDir (files ++ [bundleDraft c content]) k x

theorem arranged_eq (c : Config) (files : List Draft) (content : String) (k : Location) (x : Option Entry) :
    arranged c files content k x = laid c.bundle content k (Draft.overlaid c.outDir files k x) := by
  rw [arranged, Draft.overlaid_concat, place_bundleDraft]
  rfl

theorem laid_bundle_of_ne {content : String} (hk : k.isBelow c.outDir = true) (hne : k ≠ c.bundle)
    (x : Option Entry) : laid c.bundle content k x = x := by
  rw [laid, if_neg hne, if_neg]
  rintro ⟨hle, -⟩
  exact hne (eq_bundle_of_above hk hle)

theorem Course.compiled_eq (hc : Course compiler s c fs before after found texts) (hemits : compiler.Emits files)
    (hu : (cleaned c fs).Unlinked c.outDir) : (∀ f ∈ files, accept (f.place c.outDir).path = .ok ()) ∧
      (compiled compiler s c fs).Unlinked c.outDir ∧
      ∀ k, (compiled compiler s c fs).outline k = Draft.overlaid c.outDir files k ((cleaned c fs).outline k) := by
  obtain ⟨output, ho⟩ := hc.emitted
  have h := hemits c.inDir c.outDir (cleaned c fs)
  split at h
  next tree htree =>
    obtain ⟨tree', output', hrun, hout⟩ := h
    rw [ho] at hrun
    obtain ⟨rfl, -⟩ := Prod.mk.inj hrun
    obtain ⟨haccept, hu', hover⟩ := Draft.writeAll_eq_ok hu htree
    refine ⟨haccept, ?_, fun k => (hout k).trans (hover k)⟩
    intro k hk text
    rw [hout]
    exact hu' k hk text
  next =>
    obtain ⟨_, _, hrun⟩ := h
    rw [ho] at hrun
    cases hrun

theorem Course.outline_merged (hc : Course compiler s c fs before after found texts)
    (hu : (compiled compiler s c fs).Unlinked c.outDir) (k : Location) : (merged compiler s c fs).outline k =
      laid c.bundle (Declaration.merge texts) k ((compiled compiler s c fs).outline k) :=
  outline_replace hu.freeOfLinks_self hc.written k

theorem contains_iff_outline {tree : FileSystem} (hb : tree.snapshotOrEmpty s c.outDir.path = .ok before)
    (hfree : tree.FreeOfLinks c.outDir) (ha : accept c.outDir.path = .ok ()) (hl : l.isBelow c.outDir = true) :
    before.contains l.path = true ↔ tree.outline l ≠ none := by
  rw [(closed_of_snapshotOrEmpty hb).contains_iff, mem_snapshotOrEmpty_of_free hb hfree ha, and_iff_right hl,
    exists_get?_iff_outline]

theorem Course.contains_before_iff (hc : Course compiler s c fs before after found texts)
    (hu : (cleaned c fs).Unlinked c.outDir) (hl : l.isBelow c.outDir = true) :
    before.contains l.path = true ↔ (cleaned c fs).outline l ≠ none := by
  obtain ⟨ha, -⟩ := hc.written_bundle
  exact contains_iff_outline hc.recorded hu.freeOfLinks_self (accept_path_above ha (List.prefix_append _ _)) hl

theorem Course.mem_after_iff (hc : Course compiler s c fs before after found texts)
    (hu : (compiled compiler s c fs).Unlinked c.outDir) (l : Location) :
    l.path ∈ after.toList ↔ l.isBelow c.outDir = true ∧ (merged compiler s c fs).outline l ≠ none := by
  rw [hc.mem_after hu.freeOfLinks_self, exists_get?_iff_outline]

theorem Course.mem_deletionSet_iff (hc : Course compiler s c fs before after found texts)
    (hu : (cleaned c fs).Unlinked c.outDir) (hu' : (compiled compiler s c fs).Unlinked c.outDir) :
    q ∈ (PathSet.deletionSet before after c.bundlePath).toList ↔ ∃ l, q = Location.path l ∧
      l.isBelow c.outDir = true ∧ l ≠ c.bundle ∧ (cleaned c fs).outline l = none ∧
        (merged compiler s c fs).outline l ≠ none := by
  have hother (l : Location) : l.path.same c.bundlePath = false ↔ l ≠ c.bundle := by
    rw [Bool.eq_false_iff, ne_eq, Config.bundlePath, Location.same_path_iff]
  rw [PathSet.mem_deletionSet_iff]
  constructor
  · rintro ⟨hafter, hne, hnew⟩
    obtain ⟨rel, hrel, rfl⟩ := (closed_of_snapshot hc.revisited).below q hafter
    obtain ⟨hl, hmerged⟩ := (hc.mem_after_iff hu' _).1 hafter
    rw [Bool.eq_false_iff, ne_eq, hc.contains_before_iff hu hl, Classical.not_not] at hnew
    exact ⟨_, rfl, hl, (hother _).1 hne, hnew, hmerged⟩
  · rintro ⟨l, rfl, hl, hne, hnew, hmerged⟩
    refine ⟨(hc.mem_after_iff hu' l).2 ⟨hl, hmerged⟩, (hother l).2 hne, ?_⟩
    rw [Bool.eq_false_iff, ne_eq, hc.contains_before_iff hu hl, Classical.not_not]
    exact hnew

theorem Success.outline_done_or (hs : Success compiler s c fs done before after found texts)
    (hu : (compiled compiler s c fs).Unlinked c.outDir) (k : Location) :
    done.files.outline k = none ∨ done.files.outline k = (merged compiler s c fs).outline k := by
  obtain ⟨places, -, hw⟩ := hs.exists_swept hu.freeOfLinks_self
  cases hd : done.files.get? k with
  | none => exact .inl (outline_eq_none_iff.2 hd)
  | some e =>
    right
    rw [outline, outline, hd, hw.get?_before hd]

theorem Success.outline_done_of_apart (hs : Success compiler s c fs done before after found texts)
    (hu : (compiled compiler s c fs).Unlinked c.outDir) (hk : k.isBelow c.outDir ≠ true) :
    done.files.outline k = (merged compiler s c fs).outline k := by
  obtain ⟨places, -, hw⟩ := hs.exists_swept hu.freeOfLinks_self
  rw [outline, outline, hw.get?_of_spared]
  intro j hj hjk
  obtain ⟨hle, hne⟩ := isBelow_iff.1 (hw.below j hj).1
  apply hk
  refine isBelow_iff.2 ⟨hle.trans hjk, ?_⟩
  rintro rfl
  exact hne (hle.eq_of_length_le hjk.length_le)

theorem Success.outline_done_ne_none_iff (hs : Success compiler s c fs done before after found texts)
    (hu : (cleaned c fs).Unlinked c.outDir) (hu' : (compiled compiler s c fs).Unlinked c.outDir)
    (hfailed : done.context.failed = []) (hk : k.isBelow c.outDir = true) : done.files.outline k ≠ none ↔
      (merged compiler s c fs).outline k ≠ none ∧ ((cleaned c fs).outline k ≠ none ∨ k = c.bundle) := by
  have hclosed : Closed c.outDir before := closed_of_snapshotOrEmpty hs.recorded
  rw [← exists_get?_iff_outline, hs.exists_get?_iff hu'.freeOfLinks_self hfailed hk, hs.mem_after_iff hu',
    and_iff_right hk, ← hclosed.contains_iff, hs.contains_before_iff hu hk]

theorem Success.outline_done (hs : Success compiler s c fs done before after found texts)
    (hu : (cleaned c fs).Unlinked c.outDir) (hu' : (compiled compiler s c fs).Unlinked c.outDir)
    (hfailed : done.context.failed = []) (k : Location) : done.files.outline k =
      if k.isBelow c.outDir = true ∧ k ≠ c.bundle ∧ (cleaned c fs).outline k = none then none
      else (merged compiler s c fs).outline k := by
  by_cases hk : k.isBelow c.outDir = true
  · have hiff := hs.outline_done_ne_none_iff hu hu' hfailed hk
    split
    next hgone =>
      apply Classical.byContradiction
      intro hthere
      rcases (hiff.1 hthere).2 with hold | hbundle
      · exact hold hgone.2.2
      · exact hgone.2.1 hbundle
    next hstays =>
      rcases hs.outline_done_or hu' k with hnone | hsame
      · rw [hnone]
        apply Classical.byContradiction
        intro hmerged
        refine hiff.2 ⟨Ne.symm hmerged, ?_⟩ hnone
        by_cases hb : k = c.bundle
        · exact .inr hb
        · exact .inl fun hnew => hstays ⟨hk, hb, hnew⟩
      · exact hsame
  · rw [if_neg fun h => hk h.1]
    exact hs.outline_done_of_apart hu' hk

def Mergeable (c : Config) (tree tree' : FileSystem) (l : Location) (content : ByteArray) : Prop :=
  l.isBelow c.outDir = true ∧ tree'.outline l = some (.file content 0) ∧ (l = c.bundle → tree.outline l = none)

theorem mem_chosen_of_free {tree tree' : FileSystem} (hb : tree.snapshotOrEmpty s c.outDir.path = .ok before)
    (hl : listDeclarations s tree' c.outDir.path = .ok found) (hfree : tree.FreeOfLinks c.outDir)
    (hfree' : tree'.FreeOfLinks c.outDir) (ha : accept c.outDir.path = .ok ()) : q ∈ chosen before c found ↔
      Declaration.isDeclaration q = true ∧ ∃ l content, q = Location.path l ∧ Mergeable c tree tree' l content := by
  have hbefore : before.contains c.bundlePath = true ↔ tree.outline c.bundle ≠ none :=
    contains_iff_outline hb hfree ha (bundle_isBelow c)
  rw [mem_chosen_iff, mem_listDeclarations_of_free hl hfree' ha, hbefore]
  constructor
  · rintro ⟨⟨hdecl, content, mode, rel, hrel, hget, rfl⟩, hkeep⟩
    refine ⟨hdecl, _, content, rfl, isBelow_iff_append.2 ⟨rel, hrel, rfl⟩, outline_eq_file_iff.2 ⟨mode, hget⟩, ?_⟩
    intro heq
    rw [heq]
    apply Classical.byContradiction
    intro hne
    have hother := hkeep hne
    rw [heq, Config.bundlePath, Location.same_path_iff.2 rfl] at hother
    cases hother
  · rintro ⟨hdecl, l, content, rfl, hbelow, hfile, hnone⟩
    obtain ⟨rel, hrel, rfl⟩ := isBelow_iff_append.1 hbelow
    obtain ⟨mode, hget⟩ := outline_eq_file_iff.1 hfile
    refine ⟨⟨hdecl, content, mode, rel, hrel, hget, rfl⟩, ?_⟩
    intro hne
    rw [Bool.eq_false_iff, ne_eq, Config.bundlePath, Location.same_path_iff]
    intro heq
    rw [heq] at hnone
    exact hne (hnone rfl)

end DeclBundle.Pipeline
