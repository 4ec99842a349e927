import DeclBundle.Proofs.FileSystem.Obstacle
import DeclBundle.Proofs.FileSystem.Snapshots

namespace DeclBundle.FileSystem

variable {fs fs' : FileSystem} {base l : Location} {rel : List Name} {s : Schedule} {keep : Name → Bool} {depth : Nat}

theorem obstacle_congr (h : ∀ k, fs.get? (base ++ k) = fs'.get? (base ++ k)) :
    fs.obstacle base rel = fs'.obstacle base rel := by
  induction rel generalizing base with
  | nil => rfl
  | cons n rel ih =>
    have hrest : fs.obstacle (base ++ [n]) rel = fs'.obstacle (base ++ [n]) rel := by
      apply ih
      intro k
      rw [List.append_assoc]
      exact h _
    rw [obstacle, obstacle, ← h [n]]
    cases fs.get? (base ++ [n]) with
    | none => rfl
    | some e =>
      cases e with
      | directory mode => exact hrest
      | _ => rfl

section Found

variable (h : Alike fs fs' base) (hnames : ∀ n ∈ base, n.isStorable = true)
include h hnames

theorem Alike.obstacle_eq (rel : List Name) : fs.obstacle [] (base ++ rel) = fs'.obstacle [] (base ++ rel) := by
  have hroot (fs : FileSystem) : fs.isDirectoryAt [] = true := isDirectoryAt_iff_get?.2 ⟨_, get?_root fs⟩
  have hsame := isDirectoryAt_congr (h.get?_of_prefix (List.prefix_refl base))
  cases hd : fs.isDirectoryAt base with
  | true =>
    rw [obstacle_append_of_directory (by simpa using hd), obstacle_append_of_directory (by simpa [← hsame] using hd)]
    exact obstacle_congr h.get?_eq
  | false =>
    rw [obstacle_append_of_not_directory (hroot fs) (by simpa using hd),
      obstacle_append_of_not_directory (hroot fs') (by simpa [← hsame] using hd)]
    by_cases hwall : ∃ k, k <+: base ∧ ¬fs.Enterable k
    · obtain ⟨k, hk, hnot⟩ := hwall
      have hnot' : ¬fs'.Enterable k := fun he => hnot (h.symm.enterable (.inl hk) he)
      rw [obstacle_of_not_enterable hk hnot (hroot fs), obstacle_of_not_enterable hk hnot' (hroot fs')]
    · have henter (k : Location) (hk : k <+: base) : fs.Enterable k :=
        Classical.not_not.1 fun hnot => hwall ⟨k, hk, hnot⟩
      rw [obstacle_of_enterable (by simpa using henter) hnames,
        obstacle_of_enterable (by simpa using fun k hk => h.enterable (.inl hk) (henter k hk)) hnames]

theorem Alike.find_eq (hfree : fs.FreeOfLinks (base ++ rel)) (follow : Bool) :
    fs.find follow (Location.path (base ++ rel)) = fs'.find follow (Location.path (base ++ rel)) := by
  cases ha : accept (Location.path (base ++ rel)) with
  | error err => rw [find_path_of_error ha, find_path_of_error ha]
  | ok u =>
    rw [find_path_of_free hfree ha, find_path_of_free (h.freeOfLinks hfree) ha, h.get?_eq, h.obstacle_eq hnames]

theorem Alike.read_eq (hfree : fs.FreeOfLinks (base ++ rel)) :
    fs.read (Location.path (base ++ rel)) = fs'.read (Location.path (base ++ rel)) := by
  rw [FileSystem.read, FileSystem.read, h.find_eq hnames hfree]

end Found

theorem descend_of_shallow {p : Path} (h : ∀ rel e, fs.get? (l ++ rel) = some e → rel.length ≤ depth) :
    fs.descend s keep (depth + 1) l p = fs.descend s keep depth l p := by
  induction depth generalizing l p with
  | zero =>
    have hnone : fs.children l = [] := by
      rw [List.eq_nil_iff_forall_not_mem]
      intro n hn
      obtain ⟨e, he⟩ := mem_children_iff.1 hn
      have hlength := h [n] e he
      rw [List.length_singleton] at hlength
      omega
    have hlisted : s.listing [] = [] := (s.listing_perm []).eq_nil
    rw [descend_succ, hnone, hlisted]
    rfl
  | succ depth ih =>
    have hvisit : visit fs s keep (depth + 1) l p = visit fs s keep depth l p := by
      funext n
      have hrest (q : Path) : fs.descend s keep (depth + 1) (l ++ [n]) q = fs.descend s keep depth (l ++ [n]) q := by
        apply ih
        intro rel e he
        rw [List.append_assoc] at he
        have hlength := h _ e he
        rw [List.length_append, List.length_singleton] at hlength
        omega
      rw [visit, visit]
      simp only [hrest]
    rw [descend_succ, descend_succ, hvisit]

theorem descend_height (fs : FileSystem) (s : Schedule) (keep : Name → Bool) (l : Location) (p : Path) (more : Nat) :
    fs.descend s keep (fs.height + more) l p = fs.descend s keep fs.height l p := by
  induction more with
  | zero => rfl
  | succ more ih =>
    rw [← ih, ← Nat.add_assoc]
    apply descend_of_shallow
    intro rel e he
    have hheight := length_le_height he
    rw [List.length_append] at hheight
    omega

theorem Alike.descend_eq (h : Alike fs fs' base) (s : Schedule) (keep : Name → Bool) (depth : Nat) (rel : List Name)
    (p : Path) :
    fs.descend s keep depth (base ++ rel) p = fs'.descend s keep depth (base ++ rel) p := by
  induction depth generalizing rel p with
  | zero => rfl
  | succ depth ih =>
    have hvisit : visit fs s keep depth (base ++ rel) p = visit fs' s keep depth (base ++ rel) p := by
      funext n
      rw [visit, visit, List.append_assoc, h.get?_eq]
      simp only [ih]
    rw [descend_succ, descend_succ, h.children_eq, hvisit]

section Listed

variable (h : Alike fs fs' base) (hnames : ∀ n ∈ base, n.isStorable = true) (hfree : fs.FreeOfLinks base)
include h hnames hfree

theorem Alike.find_base_eq (follow : Bool) : fs.find follow base.path = fs'.find follow base.path := by
  have hfind := h.find_eq hnames hfree.append_nil follow
  rwa [List.append_nil] at hfind

theorem Alike.walk_eq (s : Schedule) (keep : Name → Bool) : fs.walk s keep base.path = fs'.walk s keep base.path := by
  rw [walk, walk, ← h.find_base_eq hnames hfree]
  cases hf : fs.find true base.path with
  | error err => rfl
  | ok found =>
    obtain ⟨k, e⟩ := found
    have hk : k = base := hfree.place_eq (find_path_eq_ok_iff.1 hf).2
    subst hk
    have hdescend : fs.descend s keep fs.height k k.path = fs'.descend s keep fs'.height k k.path := by
      have hboth := h.descend_eq s keep (fs.height + fs'.height) [] k.path
      rw [List.append_nil, descend_height, Nat.add_comm, descend_height] at hboth
      exact hboth
    simp only [Results.mapError_ok, Results.ok_bind, hdescend]

theorem Alike.snapshot_eq (s : Schedule) : fs.snapshot s base.path = fs'.snapshot s base.path := by
  rw [snapshot, snapshot, Location.absolute_path, Location.absolute_path]
  simp only [Results.ok_bind, h.walk_eq hnames hfree]

theorem Alike.snapshotOrEmpty_eq (s : Schedule) : fs.snapshotOrEmpty s base.path = fs'.snapshotOrEmpty s base.path := by
  rw [snapshotOrEmpty, snapshotOrEmpty, h.find_base_eq hnames hfree, h.snapshot_eq hnames hfree]

theorem Alike.declarations_eq (s : Schedule) : fs.declarations s base.path = fs'.declarations s base.path := by
  rw [declarations, declarations, Location.absolute_path, Location.absolute_path]
  simp only [Results.ok_bind, h.walk_eq hnames hfree]

end Listed

end DeclBundle.FileSystem
