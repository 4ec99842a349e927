import DeclBundle.Proofs.FileSystem.Removal
import DeclBundle.Proofs.FileSystem.Walking

/-!
The steps of a removal, between which others may change the tree. What stands at the path is looked at
first. A file or a link is then removed, and a directory is opened, emptied entry by entry in any order
that leaves no entry without its directory, and removed when nothing is left in it. A removal that is
alone with its tree comes to what `remove` gives.
-/

namespace DeclBundle

inductive Steps {α : Type} (step : α → α → Prop) (start : α) : Nat → α → Prop
  | none : Steps step start 0 start
  | next {n : Nat} {a b : α} (h : Steps step start n a) (hstep : step a b) : Steps step start (n + 1) b

namespace Steps

variable {α : Type} {step : α → α → Prop} {start a : α} {n : Nat}

theorem keeps {P : α → Prop} (h : Steps step start n a) (hstep : ∀ a b, P a → step a b → P b) (hstart : P start) :
    P a := by
  induction h with
  | none => exact hstart
  | next _ hs ih => exact hstep _ _ ih hs

theorem length_le {cost : α → Nat} (h : Steps step start n a) (hstep : ∀ a b, step a b → cost b < cost a) :
    n + cost a ≤ cost start := by
  induction h with
  | none => omega
  | next _ hs ih =>
    have hless := hstep _ _ hs
    omega

theorem exists_end {cost : α → Nat} {done : α → Prop} (h : Steps step start n a)
    (hstep : ∀ a b, step a b → cost b < cost a) (hprogress : ∀ a, ¬done a → ∃ b, step a b) :
    ∃ m b, Steps step start m b ∧ done b := by
  induction hc : cost a using Nat.strongRecOn generalizing a n with
  | ind c ih =>
    by_cases hdone : done a
    · exact ⟨n, a, h, hdone⟩
    · obtain ⟨b, hb⟩ := hprogress a hdone
      have hless := hstep a b hb
      exact ih (cost b) (by omega) (.next h hb) rfl

end Steps

namespace FileSystem

variable {fs fs' start a b : FileSystem} {p : Path} {l k : Location} {e : Entry} {mode : Nat} {err : IoError}
  {r : Removal}

structure IsThinned (fs fs' : FileSystem) : Prop where
  cwd : fs'.cwd = fs.cwd
  table : ∃ keep : Location → Bool, fs'.table = fs.table.filter (keep ·.1)

theorem IsThinned.refl (fs : FileSystem) : IsThinned fs fs :=
  ⟨rfl, fun _ => true, (List.filter_eq_self.2 fun _ _ => rfl).symm⟩

theorem IsThinned.trans (h : IsThinned fs a) (h' : IsThinned a b) : IsThinned fs b := by
  obtain ⟨keep, hkeep⟩ := h.table
  obtain ⟨keep', hkeep'⟩ := h'.table
  refine ⟨h'.cwd.trans h.cwd, fun l => keep l && keep' l, ?_⟩
  rw [hkeep', hkeep, List.filter_filter]
  simp only [Bool.and_comm]

theorem isThinned_erase (fs : FileSystem) (l : Location) : IsThinned fs (fs.erase l) :=
  ⟨rfl, fun k => !l.isPrefixOf k, rfl⟩

theorem isThinned_clear (fs : FileSystem) (l : Location) : IsThinned fs (fs.clear l) :=
  ⟨rfl, fun k => !k.isBelow l, rfl⟩

theorem isThinned_of_removeDirectory {fs' : FileSystem} (h : fs.removeDirectory p = .ok fs') : IsThinned fs fs' := by
  unfold removeDirectory at h
  dsimp only at h
  obtain ⟨t, -, h⟩ := Results.bind_eq_ok.1 h
  split at h
  · cases h
  · split at h
    · cases h
    · cases h
    · cases h
    · split at h
      · cases h
      · split at h
        · cases h
        · cases h
          exact isThinned_erase fs _
      · cases h

theorem isThinned_remove (fs : FileSystem) (p : Path) : IsThinned fs (fs.remove p).1 := by
  rw [remove]
  split
  next => exact .refl fs
  next l mode _ =>
    dsimp only
    split
    next hremoved => exact (isThinned_clear fs l).trans (isThinned_of_removeDirectory hremoved)
    next => exact isThinned_clear fs l
  next l _ _ _ => exact isThinned_erase fs l

theorem IsThinned.eq_of_get?_eq (ha : IsThinned fs a) (hb : IsThinned fs b) (hget : ∀ k, a.get? k = b.get? k) :
    a = b := by
  obtain ⟨keep, hkeep⟩ := ha.table
  obtain ⟨keep', hkeep'⟩ := hb.table
  have hmem (l : Location) (e : Entry) (h : (l, e) ∈ fs.table) : keep l = keep' l := by
    have hne := (fs.sound.storable l e h).1
    have hiff : (l, e) ∈ a.table ↔ (l, e) ∈ b.table := by
      rw [← get?_eq_some_iff hne, ← get?_eq_some_iff hne, hget]
    rw [hkeep, hkeep', List.mem_filter, List.mem_filter] at hiff
    simpa [h, ← Bool.eq_iff_iff] using hiff
  have htable : a.table = b.table := by
    rw [hkeep, hkeep']
    apply List.filter_congr
    rintro ⟨l, e⟩ h
    exact hmem l e h
  have hcwd : a.cwd = b.cwd := ha.cwd.trans hb.cwd.symm
  cases a
  cases b
  simp only at htable hcwd
  subst htable hcwd
  rfl

theorem IsThinned.length_le (h : IsThinned fs fs') : fs'.table.length ≤ fs.table.length := by
  obtain ⟨keep, hkeep⟩ := h.table
  rw [hkeep]
  exact List.length_filter_le _ _

theorem length_table_erase_lt (h : fs.get? l = some e) (hl : l ≠ []) : (fs.erase l).table.length < fs.table.length := by
  rw [erase, List.length_filter_lt_length_iff_exists]
  exact ⟨(l, e), (get?_eq_some_iff hl).1 h, by simp⟩

theorem exists_unoccupied (h : fs.isOccupied l = true) :
    ∃ k e, k.isBelow l = true ∧ fs.get? k = some e ∧ fs.isOccupied k = false := by
  induction hn : fs.height - l.length using Nat.strongRecOn generalizing l with
  | ind n ih =>
    obtain ⟨rel, e, hrel, hget⟩ := isOccupied_iff.1 h
    have hbelow : (l ++ rel).isBelow l = true := isBelow_iff_append.2 ⟨rel, hrel, rfl⟩
    cases hocc : fs.isOccupied (l ++ rel) with
    | false => exact ⟨l ++ rel, e, hbelow, hget, hocc⟩
    | true =>
      have hheight := length_le_height hget
      have hlonger := List.length_pos_iff.2 hrel
      rw [List.length_append] at hheight
      obtain ⟨k, e', hk, hget', hfree⟩ := ih _ (by rw [List.length_append]; omega) hocc rfl
      exact ⟨k, e', isBelow_of_above hbelow (isBelow_iff.1 hk).1, hget', hfree⟩

inductive Removing
  | looking
  | unlinking
  | opening
  | emptying (l : Location)
  | closing
  | ended (r : Removal)

def refused (err : IoError) : Removal :=
  if err.isNotFound then .alreadyGone else .failed err

namespace Removing

def looked : Except IoError (Location × Entry) → Removing
  | .error err => ended (refused err)
  | .ok (_, .directory _) => opening
  | .ok _ => unlinking

def opened : Except IoError (Location × Entry) → Removing
  | .error err => ended (refused err)
  | .ok (l, .directory _) => emptying l
  -- a link that has come in place of a directory is removed as a link
  | .ok (_, .link _) => unlinking
  | .ok (_, .file _ _) => ended (.failed (.os .notDirectory))

def unlinked (fs : FileSystem) : Except IoError (Location × Entry) → FileSystem × Removing
  | .error err => (fs, ended (refused err))
  | .ok (_, .directory _) => (fs, ended (.failed (.os .isDirectory)))
  | .ok (l, _) => (fs.erase l, ended .removed)

def closed (fs : FileSystem) : Except Errno FileSystem → FileSystem × Removing
  | .ok fs' => (fs', ended .removed)
  | .error number => (fs, ended (if number = .notFound then .removed else .failed (.os number)))

inductive Step (p : Path) : FileSystem × Removing → FileSystem × Removing → Prop
  | look {fs : FileSystem} : Step p (fs, looking) (fs, looked (fs.find false p))
  | unlink {fs : FileSystem} : Step p (fs, unlinking) (unlinked fs (fs.find false p))
  | enter {fs : FileSystem} : Step p (fs, opening) (fs, opened (fs.find false p))
  | erase {fs : FileSystem} {l k : Location} {e : Entry} (hk : k.isBelow l = true) (hget : fs.get? k = some e)
      (hfree : fs.isOccupied k = false) : Step p (fs, emptying l) (fs.erase k, emptying l)
  | empty {fs : FileSystem} {l : Location} (hfree : fs.isOccupied l = false) : Step p (fs, emptying l) (fs, closing)
  | close {fs : FileSystem} : Step p (fs, closing) (closed fs (fs.removeDirectory p))

def rank : Removing → Nat
  | looking => 5
  | opening => 4
  | emptying _ => 3
  | closing => 2
  | unlinking => 1
  | ended _ => 0

theorem rank_looked (x : Except IoError (Location × Entry)) : (looked x).rank < 5 := by
  unfold looked
  split <;> simp [rank]

theorem rank_opened (x : Except IoError (Location × Entry)) : (opened x).rank < 4 := by
  unfold opened
  split <;> simp [rank]

theorem unlinked_spec (fs : FileSystem) (x : Except IoError (Location × Entry)) :
    IsThinned fs (unlinked fs x).1 ∧ (unlinked fs x).2.rank = 0 := by
  unfold unlinked
  split
  · exact ⟨.refl fs, rfl⟩
  · exact ⟨.refl fs, rfl⟩
  · exact ⟨isThinned_erase fs _, rfl⟩

theorem closed_spec (fs : FileSystem) (p : Path) :
    IsThinned fs (closed fs (fs.removeDirectory p)).1 ∧ (closed fs (fs.removeDirectory p)).2.rank = 0 := by
  cases hr : fs.removeDirectory p with
  | ok fs' => exact ⟨isThinned_of_removeDirectory hr, rfl⟩
  | error number => exact ⟨.refl fs, rfl⟩

variable {m : Removing} {x y : FileSystem × Removing}

theorem Step.isThinned (h : Step p x y) : IsThinned x.1 y.1 := by
  cases h with
  | look => exact .refl _
  | unlink => exact (unlinked_spec _ _).1
  | enter => exact .refl _
  | erase => exact isThinned_erase _ _
  | empty => exact .refl _
  | close => exact (closed_spec _ _).1

theorem Step.decreases (h : Step p x y) :
    y.1.table.length + y.2.rank < x.1.table.length + x.2.rank := by
  cases h with
  | @look fs =>
    have hrank := rank_looked (fs.find false p)
    simp only [rank] at hrank ⊢
    omega
  | @unlink fs =>
    obtain ⟨hthin, hrank⟩ := unlinked_spec fs (fs.find false p)
    have hlength := hthin.length_le
    simp only [rank] at hrank ⊢
    omega
  | @enter fs =>
    have hrank := rank_opened (fs.find false p)
    simp only [rank] at hrank ⊢
    omega
  | erase hk hget hfree =>
    have hlength := length_table_erase_lt hget (ne_root_of_isBelow hk)
    simp only [rank]
    omega
  | empty => simp [rank]
  | @close fs =>
    obtain ⟨hthin, hrank⟩ := closed_spec fs p
    have hlength := hthin.length_le
    simp only [rank] at hrank ⊢
    omega

theorem exists_step (fs : FileSystem) (hm : ∀ r, m ≠ ended r) : ∃ y, Step p (fs, m) y := by
  cases m with
  | looking => exact ⟨_, .look⟩
  | unlinking => exact ⟨_, .unlink⟩
  | opening => exact ⟨_, .enter⟩
  | emptying l =>
    cases hocc : fs.isOccupied l with
    | false => exact ⟨_, .empty hocc⟩
    | true =>
      obtain ⟨k, e, hk, hget, hfree⟩ := exists_unoccupied hocc
      exact ⟨_, .erase hk hget hfree⟩
  | closing => exact ⟨_, .close⟩
  | ended r => exact absurd rfl (hm r)

def Alone (fs : FileSystem) (p : Path) : FileSystem × Removing → Prop
  | (now, looking) => now = fs
  | (now, unlinking) => now = fs ∧ ∃ l e, fs.find false p = .ok (l, e) ∧ e.isDirectory = false
  | (now, opening) => now = fs ∧ ∃ l mode, fs.find false p = .ok (l, .directory mode)
  | (now, emptying l) => IsThinned fs now ∧ (∀ k, k.isBelow l = false → now.get? k = fs.get? k) ∧
      ∃ mode, fs.find false p = .ok (l, .directory mode)
  | (now, closing) => ∃ l, now = fs.clear l ∧ ∃ mode, fs.find false p = .ok (l, .directory mode)
  | (now, ended r) => fs.remove p = (now, r)

theorem Alone.step (h : Alone fs p x) (hstep : Step p x y) : Alone fs p y := by
  cases hstep with
  | @look now =>
    obtain rfl := h
    cases hf : now.find false p with
    | error err =>
      rw [looked, Alone, remove, hf]
      rfl
    | ok found =>
      obtain ⟨l, e⟩ := found
      cases e with
      | directory mode => exact ⟨rfl, l, mode, hf⟩
      | _ => exact ⟨rfl, l, _, hf, rfl⟩
  | unlink =>
    obtain ⟨rfl, l, e, hf, he⟩ := h
    rw [hf]
    cases e with
    | directory mode => cases he
    | _ => simp only [unlinked, Alone, remove, hf]
  | @enter now =>
    obtain ⟨rfl, l, mode, hf⟩ := h
    rw [hf]
    exact ⟨.refl now, fun _ _ => rfl, mode, hf⟩
  | @erase now l k e hk hget hfree =>
    obtain ⟨hthin, hsame, hf⟩ := h
    refine ⟨hthin.trans (isThinned_erase now k), ?_, hf⟩
    intro j hj
    rw [get?_erase, if_neg, hsame j hj]
    rintro ⟨hkj, -⟩
    rw [isBelow_of_above hk hkj] at hj
    cases hj
  | @empty now l hfree =>
    obtain ⟨hthin, hsame, mode, hf⟩ := h
    refine ⟨l, hthin.eq_of_get?_eq (isThinned_clear fs l) ?_, mode, hf⟩
    intro k
    rw [get?_clear]
    split
    next hk =>
      obtain ⟨rel, hrel, rfl⟩ := isBelow_iff_append.1 hk
      exact isOccupied_eq_false_iff.1 hfree rel hrel
    next hk => exact hsame k (by simpa using hk)
  | @close now =>
    cases hr : now.removeDirectory p with
    | ok fs' =>
      obtain ⟨l, rfl, mode, hf⟩ := h
      simp only [closed, Alone, remove, hf, hr]
    | error number =>
      obtain ⟨l, rfl, mode, hf⟩ := h
      simp only [closed, Alone, remove, hf, hr]

theorem remove_of_steps {n : Nat} (h : Steps (Step p) (fs, looking) n (fs', ended r)) : fs.remove p = (fs', r) := by
  have hstart : Alone fs p (fs, looking) := by rw [Alone]
  have hend : Alone fs p (fs', ended r) := h.keeps (fun _ _ => Alone.step) hstart
  simpa only [Alone] using hend

end Removing

end FileSystem

end DeclBundle
