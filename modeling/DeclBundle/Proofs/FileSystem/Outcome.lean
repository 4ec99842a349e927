import DeclBundle.Proofs.FileSystem.AlikeWriting
import DeclBundle.Proofs.FileSystem.Dismantling

/-!
Which outcome the removal of a place has where no link is above the place. Something is there and goes
with all that is below it, or a name on the way is missing from its directory, or something on the way
is no directory, and the outcome tells which. Nothing else changes, whatever the links that go led to.
-/

namespace DeclBundle.FileSystem

variable {fs fs' : FileSystem} {d l k : Location} {n : Name} {e : Entry} {r : Removal}

def IsMissing (fs : FileSystem) (l : Location) : Prop :=
  ∃ d n, d ++ [n] <+: l ∧ fs.isDirectoryAt d = true ∧ fs.get? (d ++ [n]) = none

def IsBarred (fs : FileSystem) (l : Location) : Prop :=
  ∃ k e, k <+: l ∧ k ≠ l ∧ fs.get? k = some e ∧ e.isDirectory = false

theorem IsMissing.get?_eq (h : fs.IsMissing l) : fs.get? l = none := by
  obtain ⟨d, n, hprefix, -, hnone⟩ := h
  exact get?_below_eq_none hnone hprefix

theorem IsBarred.get?_eq (h : fs.IsBarred l) : fs.get? l = none := by
  obtain ⟨k, e, ⟨rest, rfl⟩, hne, hget, he⟩ := h
  exact get?_append_eq_none (by simp [isDirectoryAt, hget, he]) (by simpa using hne.symm)

theorem isMissing_or_isBarred_append {rel : List Name} (hd : fs.isDirectoryAt d = true)
    (h : fs.get? (d ++ rel) = none) : fs.IsMissing (d ++ rel) ∨ fs.IsBarred (d ++ rel) := by
  induction rel generalizing d with
  | nil =>
    obtain ⟨mode, hm⟩ := isDirectoryAt_iff_get?.1 hd
    rw [List.append_nil, hm] at h
    cases h
  | cons n rel ih =>
    rw [List.append_cons] at h ⊢
    have habove : d ++ [n] <+: d ++ [n] ++ rel := List.prefix_append _ _
    cases hn : fs.get? (d ++ [n]) with
    | none => exact .inl ⟨d, n, habove, hd, hn⟩
    | some e =>
      cases he : e.isDirectory with
      | true => exact ih (by simp [isDirectoryAt, hn, he]) h
      | false =>
        refine .inr ⟨d ++ [n], e, habove, ?_, hn, he⟩
        intro hself
        rw [← hself, hn] at h
        cases h

theorem isMissing_or_isBarred (h : fs.get? l = none) : fs.IsMissing l ∨ fs.IsBarred l :=
  isMissing_or_isBarred_append (isDirectoryAt_iff_get?.2 ⟨_, get?_root fs⟩) h

theorem IsMissing.enterable (h : fs.IsMissing l) (hk : k <+: l) : fs.Enterable k := by
  obtain ⟨d, n, hprefix, hdir, hnone⟩ := h
  rcases List.prefix_or_prefix_of_prefix hk hprefix with hbefore | hbehind
  · rcases List.prefix_concat_iff.1 hbefore with rfl | hd
    · exact .inl hnone
    · exact .inr (isDirectoryAt_above hdir hd)
  · exact .inl (get?_below_eq_none hnone hbehind)

theorem IsBarred.not_isMissing (h : fs.IsBarred l) : ¬fs.IsMissing l := by
  obtain ⟨k, e, hprefix, -, hget, he⟩ := h
  intro hmissing
  rcases hmissing.enterable hprefix with hnone | hdir
  · rw [hget] at hnone
    cases hnone
  · simp [isDirectoryAt, hget, he] at hdir

theorem freeOfLinks_of_get?_none (hfree : ∀ k, k <+: l → k ≠ l → ∀ text, fs.get? k ≠ some (.link text))
    (h : fs.get? l = none) : fs.FreeOfLinks l := by
  intro k hk text
  by_cases hkl : k = l
  · simp [hkl, h]
  · exact hfree k hk hkl text

theorem remove_of_isMissing (hl : l ≠ []) (ha : accept l.path = .ok ()) (hfree : fs.FreeOfLinks l)
    (hnames : ∀ n ∈ l, n.isStorable = true) (h : fs.IsMissing l) : fs.remove l.path = (fs, .alreadyGone) := by
  have hobstacle : fs.obstacle [] l = .notFound := obstacle_of_enterable (fun k hk => h.enterable hk) hnames
  rw [remove_path_of_free hl ha hfree, h.get?_eq, hobstacle]
  rfl

theorem remove_of_isBarred (hl : l ≠ []) (ha : accept l.path = .ok ()) (hfree : fs.FreeOfLinks l)
    (h : fs.IsBarred l) : fs.remove l.path = (fs, .failed (.os .notDirectory)) := by
  have hobstacle : fs.obstacle [] l = .notDirectory := by
    obtain ⟨k, e, hprefix, -, hget, he⟩ := h
    have hroot : fs.isDirectoryAt [] = true := isDirectoryAt_iff_get?.2 ⟨_, get?_root fs⟩
    apply obstacle_of_not_enterable hprefix _ hroot
    rintro (hnone | hdir)
    · rw [List.nil_append, hget] at hnone
      cases hnone
    · simp [isDirectoryAt, hget, he] at hdir
  rw [remove_path_of_free hl ha hfree, h.get?_eq, hobstacle]
  rfl

/-- A removal that tells what stood at a place and changed nothing but that. -/
structure RemovesExactly (fs after : FileSystem) (l : Location) (r : Removal) : Prop where
  removed_iff : r = .removed ↔ ∃ e, fs.get? l = some e
  alreadyGone_iff : r = .alreadyGone ↔ fs.IsMissing l
  failed_iff : ∀ err, r = .failed err ↔ err = .os .notDirectory ∧ fs.IsBarred l
  cleared : r = .removed → ∀ k, l <+: k → after.get? k = none
  untouched : r ≠ .removed → after = fs
  frame : ∀ k, ¬l <+: k → after.get? k = fs.get? k

theorem removesExactly_of_get? (h : fs.get? l = some e)
    (hafter : ∀ k, fs'.get? k = if l <+: k then none else fs.get? k) : RemovesExactly fs fs' l .removed where
  removed_iff := iff_of_true rfl ⟨e, h⟩
  alreadyGone_iff := by
    refine iff_of_false (by simp) fun hmissing => ?_
    rw [hmissing.get?_eq] at h
    cases h
  failed_iff err := by
    refine iff_of_false (by simp) fun hbarred => ?_
    rw [hbarred.2.get?_eq] at h
    cases h
  cleared _ k hk := by rw [hafter, if_pos hk]
  untouched hne := absurd rfl hne
  frame k hk := by rw [hafter, if_neg hk]

theorem removesExactly_of_isMissing (h : fs.IsMissing l) : RemovesExactly fs fs l .alreadyGone where
  removed_iff := by simp [h.get?_eq]
  alreadyGone_iff := iff_of_true rfl h
  failed_iff err := iff_of_false (by simp) fun hbarred => hbarred.2.not_isMissing h
  cleared hremoved := by cases hremoved
  untouched _ := rfl
  frame _ _ := rfl

theorem removesExactly_of_isBarred (h : fs.IsBarred l) : RemovesExactly fs fs l (.failed (.os .notDirectory)) where
  removed_iff := by simp [h.get?_eq]
  alreadyGone_iff := iff_of_false (by simp) h.not_isMissing
  failed_iff err := by simp [h, eq_comm]
  cleared hremoved := by cases hremoved
  untouched _ := rfl
  frame _ _ := rfl

theorem removesExactly_remove (hl : l ≠ []) (ha : accept l.path = .ok ()) (hnames : ∀ n ∈ l, n.isStorable = true)
    (hfree : ∀ k, k <+: l → k ≠ l → ∀ text, fs.get? k ≠ some (.link text)) :
    RemovesExactly fs (fs.remove l.path).1 l (fs.remove l.path).2 := by
  cases hget : fs.get? l with
  | some e =>
    obtain ⟨d, n, rfl⟩ := (List.eq_nil_or_concat l).resolve_left hl
    rw [List.concat_eq_append] at *
    obtain ⟨hremoved, hafter⟩ := remove_of_accept ha hget
    rw [hremoved]
    exact removesExactly_of_get? hget hafter
  | none =>
    have hfree := freeOfLinks_of_get?_none hfree hget
    rcases isMissing_or_isBarred hget with h | h
    · rw [remove_of_isMissing hl ha hfree hnames h]
      exact removesExactly_of_isMissing h
    · rw [remove_of_isBarred hl ha hfree h]
      exact removesExactly_of_isBarred h

/-- A removal is exact, also entry by entry: in whatever order a directory is emptied, the removal comes
to an end, and to the same one. -/
theorem remove_exact (hl : l ≠ []) (ha : accept l.path = .ok ()) (hnames : ∀ n ∈ l, n.isStorable = true)
    (hfree : ∀ k, k <+: l → k ≠ l → ∀ text, fs.get? k ≠ some (.link text)) :
    RemovesExactly fs (fs.remove l.path).1 l (fs.remove l.path).2 ∧
    (∀ m x, Steps (Removing.Step l.path) (fs, .looking) m x →
      ∃ m' fs' r, Steps (Removing.Step l.path) x m' (fs', .ended r)) ∧
    ∀ m fs' r, Steps (Removing.Step l.path) (fs, .looking) m (fs', .ended r) → RemovesExactly fs fs' l r := by
  have hexact := removesExactly_remove hl ha hnames hfree
  refine ⟨hexact, ?_, ?_⟩
  · intro m x _
    have hend : ∃ m' y, Steps (Removing.Step l.path) x m' y ∧ ∃ r, y.2 = .ended r :=
      Steps.exists_end .none (fun _ _ => Removing.Step.decreases) fun x hx =>
        Removing.exists_step x.1 fun r hr => hx ⟨r, hr⟩
    obtain ⟨m', ⟨fs', state⟩, hsteps, r, rfl⟩ := hend
    exact ⟨m', fs', r, hsteps⟩
  · intro m fs' r hsteps
    rwa [Removing.remove_of_steps hsteps] at hexact

namespace Sample

def kept : Location := [⟨"kept", by decide⟩]

def doomed : Location := [⟨"doomed", by decide⟩]

def tangled : FileSystem :=
  let fs := (FileSystem.empty.put kept (.directory 0o755)).put (kept ++ [⟨"note", by decide⟩])
    (.file "x".toUTF8 0o644)
  let fs := (fs.put doomed (.directory 0o755)).put (doomed ++ [⟨"aside", by decide⟩]) (.link "../kept")
  let fs := (fs.put (doomed ++ [⟨"up", by decide⟩]) (.link "..")).put (doomed ++ [⟨"lost", by decide⟩]) (.link "gone")
  (fs.put (doomed ++ [⟨"deep", by decide⟩]) (.directory 0o755)).put
    (doomed ++ [⟨"deep", by decide⟩, ⟨"back", by decide⟩]) (.link "/kept/note")

end Sample

theorem remove_exact_sample :
    let after := (Sample.tangled.remove (Location.path Sample.doomed)).1
    (Sample.tangled.remove (Location.path Sample.doomed)).2 = .removed ∧
      after.get? (Sample.doomed ++ [⟨"deep", by decide⟩]) = none ∧
      after.get? (Sample.kept ++ [⟨"note", by decide⟩]) = some (.file "x".toUTF8 0o644) ∧
      ∃ m fs' r, Steps (Removing.Step (Location.path Sample.doomed)) (Sample.tangled, .looking) m (fs', .ended r) ∧
        fs'.get? (Sample.kept ++ [⟨"note", by decide⟩]) = some (.file "x".toUTF8 0o644) := by
  have hthere : Sample.tangled.get? Sample.doomed = some (.directory 0o755) := by decide +kernel
  have hfile : Sample.tangled.get? (Sample.kept ++ [⟨"note", by decide⟩]) = some (.file "x".toUTF8 0o644) := by
    decide +kernel
  have haside : ¬Sample.doomed <+: Sample.kept ++ [⟨"note", by decide⟩] := by decide +kernel
  have hfree : ∀ k, k <+: Sample.doomed → k ≠ Sample.doomed → ∀ text, Sample.tangled.get? k ≠ some (.link text) := by
    intro k hk hne text
    rcases List.prefix_concat_iff.1 (show k <+: [] ++ Sample.doomed from hk) with hself | habove
    · exact absurd hself hne
    · simp [List.prefix_nil.1 habove, rootEntry]
  obtain ⟨hexact, hends, hsteps⟩ := remove_exact (l := Sample.doomed) (by decide)
    (accept_eq_ok_iff.2 (by decide +kernel)) (by decide +kernel) hfree
  have hremoved := hexact.removed_iff.2 ⟨_, hthere⟩
  obtain ⟨m, fs', r, hrun⟩ := hends 0 _ .none
  exact ⟨hremoved, hexact.cleared hremoved _ (List.prefix_append _ _), (hexact.frame _ haside).trans hfile,
    m, fs', r, hrun, ((hsteps m fs' r hrun).frame _ haside).trans hfile⟩

end DeclBundle.FileSystem
