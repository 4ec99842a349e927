import DeclBundle.Proofs.FileSystem.Leading
import DeclBundle.Proofs.FileSystem.Trail

/-!
Paths of any spelling that end in a name. The steps before the name lead to a directory, and what
the path leads to is what the name has there.
-/

namespace DeclBundle.FileSystem

variable {fs fs' : FileSystem} {p : Path} {d l k : Location} {n : Name} {slash follow : Bool} {links : Nat}
  {steps rest : List Step} {e : Entry} {mode : Nat}

theorem exists_slashes (segments : List String) :
    ∃ trailing, segments = (segments.reverse.dropWhile (· = "")).reverse ++ List.replicate trailing "" := by
  have hempty : segments.reverse.takeWhile (· = "") =
      List.replicate (segments.reverse.takeWhile (· = "")).length "" := by
    apply List.eq_replicate_iff.2
    refine ⟨rfl, ?_⟩
    intro segment h
    simpa using List.all_eq_true.1 List.all_takeWhile segment h
  refine ⟨(segments.reverse.takeWhile (· = "")).length, ?_⟩
  rw [← List.reverse_replicate, ← hempty, ← List.reverse_append, List.takeWhile_append_dropWhile, List.reverse_reverse]

theorem exists_steps_of_ending (h : (ending p).2 = .name n slash) : ∃ steps trailing,
    (ending p).1 = steps ++ [.here] ∧ p.steps = steps ++ .down n :: List.replicate trailing .here ∧
      (slash = false → trailing = 0) := by
  obtain ⟨trailing, hbody⟩ := exists_slashes p.split.2
  rw [Path.steps]
  unfold ending at h ⊢
  dsimp only at h ⊢
  generalize (p.split.2.reverse.dropWhile (· = "")).reverse = trimmed at h hbody ⊢
  cases hlast : trimmed.getLast? with
  | none =>
    simp only [hlast] at h
    split at h <;> cases h
  | some last =>
    simp only [hlast] at h ⊢
    obtain ⟨front, rfl⟩ := List.getLast?_eq_some_iff.1 hlast
    have hstep : Path.step last = .down n := by
      split at h
      · cases h
      · cases h
      next m hm =>
        cases h
        exact hm
    refine ⟨front.map Path.step, trailing, by rw [List.dropLast_concat], ?_, ?_⟩
    · have hhere : Path.step "" = .here := by decide
      rw [hbody, List.map_append, List.map_replicate, hhere, List.map_append, List.map_singleton, hstep,
        List.append_assoc, List.singleton_append]
    · intro hslash
      have hlength := congrArg List.length hbody
      rw [List.length_append, List.length_replicate] at hlength
      simp only [hstep, hslash, Ending.name.injEq, decide_eq_false_iff_not, true_and] at h
      omega

theorem advance_heres (h : fs.get? l = some (.directory mode)) (trailing : Nat) :
    fs.advance l (List.replicate trailing .here) = .target (.present l (.directory mode)) := by
  induction trailing with
  | zero => exact advance_nil h
  | succ trailing ih => rw [List.replicate_succ, advance_here h, ih]

theorem find_mono (hcwd : fs'.cwd = fs.cwd) (htree : ∀ k e, fs.get? k = some e → fs'.get? k = some e)
    (h : fs.find follow p = .ok (l, e)) : fs'.find follow p = .ok (l, e) := by
  obtain ⟨ha, hresolve⟩ := find_eq_ok_iff.1 h
  refine find_eq_ok_iff.2 ⟨ha, ?_⟩
  rw [hcwd]
  exact resolve_mono htree hresolve

theorem not_isLink_of_advance (hl : ∀ text, fs.get? l ≠ some (.link text))
    (h : fs.advance l steps = .target (.present k e)) : e.isLink = false := by
  fun_induction advance fs l steps with
  | case1 l e' he =>
    cases h
    cases e with
    | link text => exact absurd he (hl text)
    | _ => rfl
  | case4 l rest mode hd ih => exact ih hl h
  | case5 l rest mode hd ih =>
    obtain ⟨mode', hup⟩ := isDirectoryAt_iff_get?.1 (isDirectoryAt_dropLast hd)
    exact ih (by simp [hup]) h
  | case9 l rest mode hd n e' he hn ih =>
    apply ih _ h
    intro text htext
    rw [hn] at htext
    exact he text (Option.some.inj htext)
  | _ => cases h

theorem not_isLink_of_resolve (hl : fs.isDirectoryAt l = true)
    (h : fs.resolve true links l steps = .ok (.present k e)) : e.isLink = false := by
  generalize hf : true = follow at h
  fun_induction resolve fs follow links l steps with
  | case1 links l steps t ha =>
    cases h
    obtain ⟨mode, hd⟩ := isDirectoryAt_iff_get?.1 hl
    exact not_isLink_of_advance (by simp [hd]) ha
  | case2 => cases h
  | case3 links l steps place text rest ha hlast => simp [← hf] at hlast
  | case4 => cases h
  | case5 l steps place text rest ha hlast links target ih =>
    refine ih ?_ h
    rw [Path.start]
    split
    · exact isDirectoryAt_iff_get?.2 ⟨_, get?_root fs⟩
    · exact isDirectoryAt_dropLast (get?_of_advance_link ha)

/-- A path that ends in a name, and the directory in which that name is looked for. -/
structure Enters (fs : FileSystem) (p : Path) (d : Location) (n : Name) (slash : Bool) : Prop where
  accepted : accept p = .ok ()
  ending : (ending p).2 = .name n slash
  leads : ∃ mode, fs.resolve true maxLinks (p.start fs.cwd) (FileSystem.ending p).1 = .ok (.present d (.directory mode))

theorem enters_of_entrance (h : fs.entrance p = .ok (d, .name n slash)) : fs.Enters p d n slash := by
  rcases hp : ending p with ⟨front, last⟩
  rw [entrance, hp] at h
  obtain ⟨_, ha, h⟩ := Results.bind_eq_ok.1 h
  obtain ⟨t, ht, h⟩ := Results.bind_eq_ok.1 h
  rw [Results.mapError_eq_ok] at ht
  cases t with
  | absent l => cases h
  | present l e =>
    cases h
    have hname : (ending p).2 = .name n slash := by rw [hp]
    obtain ⟨steps, trailing, hsteps, -, -⟩ := exists_steps_of_ending hname
    rw [hp] at hsteps
    obtain rfl : front = steps ++ [.here] := hsteps
    obtain ⟨k, mode, hk, -⟩ := resolve_concat_here.1 ht
    cases hk
    exact ⟨ha, hname, mode, by rw [hp, ht]⟩

theorem enters_path_iff {m : Name} : fs.Enters (Location.path (d ++ [n])) k m slash ↔
    accept (Location.path (d ++ [n])) = .ok () ∧ fs.LeadsTo d k ∧ m = n ∧ slash = false := by
  have hending : (ending (Location.path (d ++ [n]))).2 = .name n false := by rw [Location.ending_path]
  have hleads : (∃ mode, fs.resolve true maxLinks (Path.start (Location.path (d ++ [n])) fs.cwd)
      (ending (Location.path (d ++ [n]))).1 = .ok (.present k (.directory mode))) ↔ fs.LeadsTo d k := by
    rw [Location.ending_path, Location.start_path]
    constructor
    · rintro ⟨mode, h⟩
      obtain ⟨j, mode', hj, h⟩ := resolve_concat_here.1 h
      cases hj
      exact ⟨mode, h⟩
    · rintro ⟨mode, h⟩
      exact ⟨mode, resolve_concat_here.2 ⟨k, mode, rfl, h⟩⟩
  constructor
  · intro h
    have hlast := h.ending
    rw [hending] at hlast
    cases hlast
    exact ⟨h.accepted, hleads.1 h.leads, rfl, rfl⟩
  · rintro ⟨ha, hd, rfl, rfl⟩
    exact ⟨ha, hending, hleads.2 hd⟩

theorem Enters.isDirectoryAt (h : fs.Enters p d n slash) : fs.isDirectoryAt d = true := by
  obtain ⟨mode, hd⟩ := h.leads
  exact isDirectoryAt_iff_get?.2 ⟨mode, get?_of_resolve hd⟩

theorem Enters.exists_resolve_eq (h : fs.Enters p d n slash) : ∃ left trailing, (slash = false → trailing = 0) ∧
    ∀ follow, fs.resolve follow maxLinks (p.start fs.cwd) p.steps =
      fs.resolve follow left d (.down n :: List.replicate trailing .here) := by
  obtain ⟨mode, hd⟩ := h.leads
  obtain ⟨steps, trailing, hfront, hsteps, hslash⟩ := exists_steps_of_ending h.ending
  rw [hfront] at hd
  obtain ⟨k, mode', hk, hd⟩ := resolve_concat_here.1 hd
  cases hk
  obtain ⟨left, hon⟩ := resolve_append hd
  refine ⟨left, trailing, hslash, ?_⟩
  intro follow
  rw [hsteps, hon follow _ (by simp)]

theorem Enters.find_directory (h : fs.Enters p d n slash) (hget : fs.get? (d ++ [n]) = some (.directory mode)) :
    fs.find true p = .ok (d ++ [n], .directory mode) := by
  obtain ⟨left, trailing, -, hon⟩ := h.exists_resolve_eq
  obtain ⟨mode', hd⟩ := isDirectoryAt_iff_get?.1 h.isDirectoryAt
  refine find_eq_ok_iff.2 ⟨h.accepted, ?_⟩
  rw [hon]
  apply resolve_of_target
  rw [advance_down n hd, hget]
  exact advance_heres hget trailing

theorem Enters.find_entry (h : fs.Enters p d n false) (hget : fs.get? (d ++ [n]) = some e)
    (he : follow = false ∨ e.isLink = false) : fs.find follow p = .ok (d ++ [n], e) := by
  obtain ⟨left, trailing, htrailing, hon⟩ := h.exists_resolve_eq
  obtain rfl := htrailing rfl
  refine find_eq_ok_iff.2 ⟨h.accepted, ?_⟩
  rw [hon]
  have hdown : fs.resolve follow left d ([n].map .down) = .ok (.present (d ++ [n]) e) :=
    resolve_downs hget (fun _ => h.isDirectoryAt) he
  exact hdown

theorem Enters.place? (h : fs.Enters p d n false) (hn : n.isStorable = true) : fs.place? p = some (d ++ [n]) := by
  cases hget : fs.get? (d ++ [n]) with
  | some e =>
    rw [FileSystem.place?, (find_eq_ok_iff.1 (h.find_entry hget (.inl rfl))).2]
    rfl
  | none =>
    obtain ⟨left, trailing, htrailing, hon⟩ := h.exists_resolve_eq
    obtain rfl := htrailing rfl
    obtain ⟨mode, hd⟩ := isDirectoryAt_iff_get?.1 h.isDirectoryAt
    have hadvance : fs.advance d [.down n] = .target (.absent (d ++ [n])) := by
      rw [advance_down n hd, hget]
      simp [hn]
    rw [FileSystem.place?, hon, List.replicate_zero, resolve_of_target hadvance]
    rfl

theorem Enters.not_isLink (h : fs.Enters p d n slash) (hf : fs.find true p = .ok (l, e)) : e.isLink = false := by
  obtain ⟨left, trailing, -, hon⟩ := h.exists_resolve_eq
  have hresolve := (find_eq_ok_iff.1 hf).2
  rw [hon] at hresolve
  exact not_isLink_of_resolve h.isDirectoryAt hresolve

theorem Enters.transfer (h : fs.Enters p d n slash) (hcwd : fs'.cwd = fs.cwd)
    (htree : ∀ k e, fs.get? k = some e → e.isFile = false → fs'.get? k = some e) : fs'.Enters p d n slash := by
  obtain ⟨mode, hd⟩ := h.leads
  refine ⟨h.accepted, h.ending, mode, ?_⟩
  rw [hcwd]
  exact resolve_transfer (fun e => e.isFile = false) (fun _ he => he) htree rfl hd

def approach (fs : FileSystem) (p : Path) : List Location :=
  fs.trail true maxLinks (p.start fs.cwd) (ending p).1

theorem Enters.of_approach (h : fs.Enters p d n slash) (hcwd : fs'.cwd = fs.cwd)
    (htree : ∀ k ∈ fs.approach p, fs'.get? k = fs.get? k) : fs'.Enters p d n slash := by
  obtain ⟨mode, hd⟩ := h.leads
  refine ⟨h.accepted, h.ending, mode, ?_⟩
  rw [hcwd, resolve_of_trail htree, hd]

end DeclBundle.FileSystem
