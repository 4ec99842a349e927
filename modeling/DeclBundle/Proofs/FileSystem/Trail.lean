import DeclBundle.Proofs.FileSystem.Descent

/-!
The places that a path leads through: the directories it goes down, the links it follows and all
that these lead through, and what it ends at. Where a path leads depends on those places alone.
-/

namespace DeclBundle.FileSystem

variable {fs fs' : FileSystem} {follow : Bool} {links : Nat} {l k base : Location} {steps rest : List Step}
  {e : Entry} {p : Path}

def passed (fs : FileSystem) (l : Location) : List Step → List Location
  | [] => [l]
  | step :: rest =>
    l :: match fs.get? l with
      | some (.directory _) =>
        match step with
        | .here => passed fs l rest
        | .up => passed fs l.dropLast rest
        | .down n =>
          match fs.get? (l ++ [n]) with
          | none => [l ++ [n]]
          | some (.link _) => [l ++ [n]]
          | some _ => passed fs (l ++ [n]) rest
      | _ => []

def trail (fs : FileSystem) (follow : Bool) : (links : Nat) → Location → List Step → List Location
  | links, l, steps =>
    fs.passed l steps ++
      match fs.advance l steps with
      | .link place text rest =>
        if rest = [] ∧ !follow then []
        else
          match links with
          | 0 => []
          | links + 1 =>
            let target : Path := ⟨text⟩
            fs.trail follow links (target.start place.dropLast) (target.steps ++ rest)
      | _ => []

def way (fs : FileSystem) (p : Path) : List Location :=
  fs.trail true maxLinks (p.start fs.cwd) p.steps

theorem self_mem_passed : l ∈ fs.passed l steps := by
  cases steps <;> simp [passed]

theorem advance_congr (h : ∀ k ∈ fs.passed l steps, fs'.get? k = fs.get? k) :
    fs'.advance l steps = fs.advance l steps := by
  have hself := h l self_mem_passed
  fun_induction advance fs l steps with
  | case1 l e hl => exact advance_nil (hself.trans hl)
  | case2 l hl => exact advance_of_none (hself.trans hl)
  | case3 l step rest hl => exact advance_of_none (hself.trans hl)
  | case4 l rest mode hl ih =>
    rw [passed, hl] at h
    have hrest := fun k hk => h k (List.mem_cons_of_mem _ hk)
    rw [advance_here (hself.trans hl), ih hrest hself]
  | case5 l rest mode hl ih =>
    rw [passed, hl] at h
    have hrest := fun k hk => h k (List.mem_cons_of_mem _ hk)
    rw [advance_up (hself.trans hl), ih hrest (hrest _ self_mem_passed)]
  | case6 l rest mode hl n hn hs =>
    have hname := h (l ++ [n]) (by simp [passed, hl, hn])
    rw [advance_down n (hself.trans hl), hname, hn]
    simp [hs]
  | case7 l rest mode hl n hn hs =>
    have hname := h (l ++ [n]) (by simp [passed, hl, hn])
    rw [advance_down n (hself.trans hl), hname, hn]
    simp [hs]
  | case8 l rest mode hl n text hn =>
    have hname := h (l ++ [n]) (by simp [passed, hl, hn])
    rw [advance_down n (hself.trans hl), hname, hn]
  | case9 l rest mode hl n e he hn ih =>
    have hpassed : fs.passed l (.down n :: rest) = l :: fs.passed (l ++ [n]) rest := by
      cases e with
      | link text => exact absurd rfl (he text)
      | _ => simp only [passed, hl, hn]
    rw [hpassed] at h
    have hrest := fun k hk => h k (List.mem_cons_of_mem _ hk)
    have hname := hrest _ self_mem_passed
    rw [advance_down n (hself.trans hl), hname, hn]
    cases e with
    | link text => exact absurd rfl (he text)
    | _ => exact ih hrest hname
  | case10 l step rest e he hl =>
    have hd : e.isDirectory = false := by
      rw [Bool.eq_false_iff, ne_eq, Entry.isDirectory_iff]
      rintro ⟨mode, rfl⟩
      exact he mode rfl
    exact advance_of_not_directory (hself.trans hl) hd (by simp)

theorem mem_trail_of_passed (h : k ∈ fs.passed l steps) : k ∈ fs.trail follow links l steps := by
  rw [trail.eq_1]
  exact List.mem_append_left _ h

theorem goes_on (h : ¬(rest = [] ∧ (!follow) = true)) : rest ≠ [] ∨ follow = true := by
  by_cases hr : rest = []
  · exact .inr (by simpa [hr] using h)
  · exact .inl hr

theorem mem_trail_of_link {text : String} (ha : fs.advance l steps = .link base text rest)
    (hf : ¬(rest = [] ∧ (!follow) = true))
    (h : k ∈ fs.trail follow links (Path.start ⟨text⟩ base.dropLast) (Path.steps ⟨text⟩ ++ rest)) :
    k ∈ fs.trail follow (links + 1) l steps := by
  rw [trail.eq_1, ha]
  simp only [hf, ↓reduceIte]
  exact List.mem_append_right _ h

theorem resolve_of_trail (h : ∀ k ∈ fs.trail follow links l steps, fs'.get? k = fs.get? k) :
    fs'.resolve follow links l steps = fs.resolve follow links l steps := by
  have hadvance : fs'.advance l steps = fs.advance l steps :=
    advance_congr fun k hk => h k (mem_trail_of_passed hk)
  -- a link that is followed has its own trail, and that begins with the places the next walk passes
  fun_induction resolve fs follow links l steps with
  | case1 links l steps t ha => exact resolve_of_target (hadvance.trans ha)
  | case2 links l steps number ha => exact resolve_of_failed (hadvance.trans ha)
  | case3 links l steps place text rest ha hf =>
    obtain ⟨rfl, hf⟩ := hf
    obtain rfl : follow = false := by simpa using hf
    exact resolve_of_last_link (hadvance.trans ha)
  | case4 l steps place text rest ha hf => exact resolve_of_link_zero (hadvance.trans ha) (goes_on hf)
  | case5 l steps place text rest ha hf links target ih =>
    rw [resolve_of_link_succ (hadvance.trans ha) (goes_on hf)]
    have hmore := fun k hk => h k (mem_trail_of_link ha hf hk)
    exact ih hmore (advance_congr fun k hk => hmore k (mem_trail_of_passed hk))

theorem find_path_of_way (h : ∀ k ∈ fs.way l.path, fs'.get? k = fs.get? k) :
    fs'.find true l.path = fs.find true l.path := by
  rw [way, Location.start_path] at h
  rw [find, find, locate, locate, Location.start_path, Location.start_path, resolve_of_trail h]

theorem mem_passed_downs {rel : List Name} (h : k ∈ fs.passed base (rel.map .down)) :
    ∃ j, j <+: rel ∧ k = base ++ j := by
  induction rel generalizing base with
  | nil =>
    rw [List.map_nil, passed, List.mem_singleton] at h
    exact ⟨[], List.nil_prefix, by simpa using h⟩
  | cons n rel ih =>
    rw [List.map_cons, passed, List.mem_cons] at h
    rcases h with rfl | h
    · exact ⟨[], List.nil_prefix, by simp⟩
    · have hname : (k = base ++ [n]) → ∃ j, j <+: n :: rel ∧ k = base ++ j :=
        fun hk => ⟨[n], by simp, hk⟩
      split at h
      · split at h
        · exact hname (by simpa using h)
        · exact hname (by simpa using h)
        · obtain ⟨j, hj, rfl⟩ := ih h
          exact ⟨n :: j, by simpa using hj, by simp⟩
      · cases h

theorem prefix_of_mem_way (hfree : fs.FreeOfLinks l) (h : k ∈ fs.way l.path) : k <+: l := by
  have hdown : k ∈ fs.trail true maxLinks [] (l.map .down) → k <+: l := by
    intro hk
    rw [trail.eq_1] at hk
    have hends : (fs.advance [] (l.map .down)).EndsAt ([] ++ l) :=
      advance_downs_of_free fun j hj _ => hfree j hj
    rcases List.mem_append.1 hk with hk | hk
    · obtain ⟨j, hj, rfl⟩ := mem_passed_downs hk
      simpa using hj
    · split at hk
      next place text rest ha =>
        rw [ha] at hends
        exact hends.elim
      next => cases hk
  rw [way, Location.start_path, Location.steps_path] at h
  split at h
  next hl =>
    subst hl
    have hroot : fs.trail true maxLinks [] [.here] = [[], []] := by
      rw [trail.eq_1, advance_here (get?_root fs), advance_nil (get?_root fs)]
      simp [passed, rootEntry]
    rw [hroot] at h
    simp_all
  next => exact hdown h

end DeclBundle.FileSystem
