import DeclBundle.Proofs.FileSystem.Replacement
import DeclBundle.Proofs.Path
import DeclBundle.Proofs.PathSet.Roots

/-!
Writing a file, whatever way its path goes. Directories that are missing on the way to it are made,
and then either the place it names holds the file and nothing else has changed, or nothing has.
-/

namespace DeclBundle.FileSystem

variable {fs fs' mid : FileSystem} {p q : Path} {d l k place : Location} {n : Name} {slash : Bool} {e : Entry}
  {text : String} {mode : Nat}

structure Extended (fs fs' : FileSystem) (p : Path) : Prop where
  cwd : fs'.cwd = fs.cwd
  kept : ∀ k e, fs.get? k = some e → fs'.get? k = some e
  made : ∀ k e, fs'.get? k = some e → fs.get? k = none →
    e = .directory directoryMode ∧ ∃ q, p.isWithin q = true ∧ fs'.find true q = .ok (k, e)

theorem Extended.refl (fs : FileSystem) (p : Path) : Extended fs fs p where
  cwd := rfl
  kept _ _ h := h
  made k e h hnone := by
    rw [h] at hnone
    cases hnone

theorem Extended.trans (h : Extended fs mid p) (h' : Extended mid fs' p) : Extended fs fs' p where
  cwd := h'.cwd.trans h.cwd
  kept k e hk := h'.kept k e (h.kept k e hk)
  made k e hk hnone := by
    cases hmid : mid.get? k with
    | none => exact h'.made k e hk hmid
    | some e' =>
      rw [h'.kept k e' hmid] at hk
      cases hk
      obtain ⟨he, q, hq, hfind⟩ := h.made k e hmid hnone
      exact ⟨he, q, hq, find_mono h'.cwd h'.kept hfind⟩

theorem Extended.below (h : Extended fs fs' q) (hq : p.isWithin q = true) : Extended fs fs' p where
  cwd := h.cwd
  kept := h.kept
  made k e hk hnone := by
    obtain ⟨he, r, hr, hfind⟩ := h.made k e hk hnone
    exact ⟨he, r, Path.isWithin_trans hq hr, hfind⟩

theorem Extended.congr (h : Extended fs mid p) (hcwd : fs'.cwd = mid.cwd) (htree : ∀ k, fs'.get? k = mid.get? k) :
    Extended fs fs' p :=
  h.trans
    { cwd := hcwd
      kept k e hk := (htree k).trans hk
      made k e hk hnone := by
        rw [htree, hnone] at hk
        cases hk }

theorem makeDirectory_eq_ok (h : fs.makeDirectory p = .ok fs') : ∃ d n slash, fs.Enters p d n slash ∧
    n.isStorable = true ∧ fs.get? (d ++ [n]) = none ∧ fs' = fs.put (d ++ [n]) (.directory directoryMode) := by
  obtain ⟨⟨d, last⟩, he, h⟩ := Results.bind_eq_ok.1 h
  cases last with
  | name n slash =>
    refine ⟨d, n, slash, enters_of_entrance he, ?_⟩
    cases hn : n.isStorable with
    | false => simp [hn] at h
    | true =>
      cases hget : fs.get? (d ++ [n]) with
      | some e => simp [hn, hget] at h
      | none =>
        simp only [hn, hget, Bool.not_true, Bool.false_eq_true, ↓reduceIte, Option.isSome_none, Results.pure_eq_ok,
          Except.ok.injEq] at h
        exact ⟨rfl, rfl, h.symm⟩
  | _ => cases h

theorem extended_of_makeDirectory (h : fs.makeDirectory p = .ok fs') : Extended fs fs' p := by
  obtain ⟨d, n, slash, henter, hn, hnone, rfl⟩ := makeDirectory_eq_ok h
  have hfree : fs.isDirectoryAt (d ++ [n]) = false := by simp [FileSystem.isDirectoryAt, hnone]
  have htakes := takes_concat (.directory directoryMode) henter.isDirectoryAt hn hfree
  have hkept (k : Location) (e : Entry) (hk : fs.get? k = some e) :=
    get?_put_of_get? hnone (.directory directoryMode) hk
  refine ⟨put_cwd _ _ _, hkept, ?_⟩
  intro k e hk habsent
  have hnew : k = d ++ [n] := by
    apply Classical.byContradiction
    intro hne
    rw [get?_put_of_ne _ _ hne, habsent] at hk
    cases hk
  subst hnew
  have hself := get?_put htakes (d ++ [n])
  rw [if_pos rfl] at hself
  rw [hself] at hk
  cases hk
  have henter' := henter.transfer (put_cwd _ _ _) fun k e hk _ => hkept k e hk
  exact ⟨rfl, p, Path.isWithin_refl p, henter'.find_directory hself⟩

theorem extended_settle (fs : FileSystem) (p : Path) : Extended fs (fs.settle p).1 p := by
  rw [settle]
  split
  next made hmade => exact extended_of_makeDirectory hmade
  next => exact .refl fs p

theorem extended_makeDirectoriesUpTo (fuel : Nat) (p : Path) (fs : FileSystem) :
    Extended fs (makeDirectoriesUpTo fuel p fs).1 p := by
  induction fuel generalizing p fs with
  | zero => exact .refl fs p
  | succ fuel ih =>
    rw [makeDirectoriesUpTo]
    split
    next => exact .refl fs p
    next =>
      split
      next parent hmade hparent =>
        have habove := (ih parent fs).below (Path.isWithin_iff.2 (Path.components_parent hparent))
        split
        next mid hmid =>
          rw [hmid] at habove
          exact habove.trans (extended_settle mid p)
        next => exact habove
      next => exact extended_settle fs p

theorem extended_makeDirectories (fs : FileSystem) (p : Path) : Extended fs (fs.makeDirectories p).1 p :=
  extended_makeDirectoriesUpTo _ p fs

theorem extended_prepared (fs : FileSystem) (p : Path) : Extended fs (fs.prepared p) p.directory :=
  extended_makeDirectories fs p.directory

theorem modeFor_prepared {content : ByteArray} (h : fs.find true p = .ok (l, .file content mode)) :
    (fs.prepared p).modeFor p = mode := by
  rw [modeFor, find_mono (extended_prepared fs p).cwd (extended_prepared fs p).kept h]

/-- What a replacement that succeeds has done to a tree: a file is at the place of the path, also where a
link was, and what the link led to has not changed. The path leads to the file, unless its own way there
went through the link. -/
structure Written (fs after : FileSystem) (p : Path) (text : String) (place : Location) : Prop where
  named : fs.place? p = some place
  replaced : Replaced fs after place text (fs.modeFor p)
  reached : (∀ target, fs.get? place ≠ some (.link target)) ∨ place ∉ fs.approach p →
    ∀ follow, after.find follow p = .ok (place, .file text.toUTF8 (fs.modeFor p))
  target : ∀ target l e, fs.get? place = some (.link target) → fs.find true p = .ok (l, e) → after.get? l = some e

theorem Replaced.enters (h : Replaced fs fs' place text mode) (hcwd : fs'.cwd = fs.cwd) (henter : fs.Enters p d n slash)
    (haside : (∀ target, fs.get? place ≠ some (.link target)) ∨ place ∉ fs.approach p) : fs'.Enters p d n slash := by
  rcases haside with hlink | happroach
  · -- what was replaced is no directory and no link, so every path leads on as it did
    apply henter.transfer hcwd
    intro k e hk he
    rw [h.get?_eq, if_neg, hk]
    rintro rfl
    cases e with
    | file content mode => cases he
    | directory mode => simpa [FileSystem.isDirectoryAt, hk, Entry.isDirectory] using h.free
    | link target => exact hlink target hk
  · apply henter.of_approach hcwd
    intro k hk
    rw [h.get?_eq, if_neg]
    rintro rfl
    exact happroach hk

theorem Replaced.written (h : Replaced fs fs' (d ++ [n]) text (fs.modeFor p)) (hcwd : fs'.cwd = fs.cwd)
    (henter : fs.Enters p d n false) (hn : n.isStorable = true) : Written fs fs' p text (d ++ [n]) where
  named := henter.place? hn
  replaced := h
  reached haside follow := (h.enters hcwd henter haside).find_entry h.get?_place (.inr rfl)
  target target l e hlink hfind := by
    have hget := get?_of_resolve (find_eq_ok_iff.1 hfind).2
    rw [h.get?_eq, if_neg, hget]
    rintro rfl
    rw [hget] at hlink
    cases hlink
    cases henter.not_isLink hfind

/-- Once the directories are there, a file is written as a whole or the tree stays as it is. -/
theorem replace_atomic (fs : FileSystem) (p : Path) (text : String) :
    Extended fs (fs.prepared p) p.directory ∧
      (∀ l content mode, fs.find true p = .ok (l, .file content mode) → (fs.prepared p).modeFor p = mode) ∧
      match fs.replace p text with
      | (after, .ok _) => ∃ place, Written (fs.prepared p) after p text place
      | (after, .error _) => Extended fs after p.directory ∧ ∀ k, after.get? k = (fs.prepared p).get? k := by
  refine ⟨extended_prepared fs p, fun _ _ _ => modeFor_prepared, ?_⟩
  have hcwd := fs.replace_cwd p text
  rcases hreplace : fs.replace p text with ⟨after, result⟩
  rw [hreplace] at hcwd
  rcases replace_eq hreplace with ⟨err, rfl, htree⟩ | ⟨rfl, -, d, n, henter, hn, hreplaced⟩
  · exact ⟨(extended_prepared fs p).congr hcwd htree, htree⟩
  · exact ⟨d ++ [n], hreplaced.written hcwd henter hn⟩

namespace Sample

def turning : FileSystem :=
  FileSystem.empty.put [⟨"l", by decide⟩] (.link ".")

def guarded : FileSystem :=
  FileSystem.empty.put [⟨"f", by decide⟩] (.file "old".toUTF8 0o600)

end Sample

/-- A path that leads through the link it names does not lead to the file that replaced it. And a path
that led nowhere may lead to a file, and so to its mode, through the directories that are made for it. -/
theorem not_forall_replace_found :
    (¬∀ (fs : FileSystem) (p : Path) (text : String), (fs.replace p text).2 = .ok () →
      ∃ l mode, (fs.replace p text).1.find false p = .ok (l, .file text.toUTF8 mode)) ∧
    ¬∀ (fs : FileSystem) (p : Path) (text : String) (l : Location) (mode : Nat),
      (fs.replace p text).2 = .ok () → (fs.replace p text).1.find false p = .ok (l, .file text.toUTF8 mode) →
        mode = fs.modeFor p := by
  refine ⟨?_, ?_⟩
  · intro h
    have hok : (Sample.turning.replace ⟨"l/l"⟩ "x").2 = .ok () := Results.eq_ok_of_toOption (by decide +kernel)
    obtain ⟨l, mode, hfound⟩ := h _ _ _ hok
    have hlost : ((Sample.turning.replace ⟨"l/l"⟩ "x").1.find false ⟨"l/l"⟩).toOption = none := by decide +kernel
    rw [hfound] at hlost
    cases hlost
  · intro h
    have hok : (Sample.guarded.replace ⟨"new/../f"⟩ "x").2 = .ok () := Results.eq_ok_of_toOption (by decide +kernel)
    have hfound : (Sample.guarded.replace ⟨"new/../f"⟩ "x").1.find false ⟨"new/../f"⟩ =
        .ok ([⟨"f", by decide⟩], .file "x".toUTF8 0o600) :=
      Results.eq_ok_of_toOption (by decide +kernel)
    have hmode : Sample.guarded.modeFor ⟨"new/../f"⟩ = 0o644 := by decide +kernel
    have heq := h _ _ _ _ _ hok hfound
    rw [hmode] at heq
    cases heq

end DeclBundle.FileSystem
