import DeclBundle.Proofs.FileSystem.Lookup
import DeclBundle.Proofs.Location

namespace DeclBundle.FileSystem

variable {fs fs' : FileSystem} {follow : Bool} {links : Nat} {l k : Location} {steps rest : List Step}
  {e : Entry} {mode : Nat}

def Target.place : Target → Location
  | present l _ => l
  | absent l => l

/-- The place a path names: a link at its end is not followed, and nothing need be there. -/
def place? (fs : FileSystem) (p : Path) : Option Location :=
  (fs.resolve false maxLinks (p.start fs.cwd) p.steps).toOption.map Target.place

def entryAt? (fs : FileSystem) (p : Path) : Option Entry :=
  (fs.place? p).bind fs.get?

theorem advance_nil (h : fs.get? l = some e) : fs.advance l [] = .target (.present l e) := by
  rw [advance, h]

theorem advance_of_none (h : fs.get? l = none) : fs.advance l steps = .failed .notFound := by
  cases steps <;> simp only [advance, h]

theorem advance_of_not_directory (h : fs.get? l = some e) (he : e.isDirectory = false) (hs : steps ≠ []) :
    fs.advance l steps = .failed .notDirectory := by
  cases steps with
  | nil => exact absurd rfl hs
  | cons step rest =>
    cases e with
    | directory mode => cases he
    | _ => simp only [advance, h]

theorem advance_here (h : fs.get? l = some (.directory mode)) :
    fs.advance l (.here :: rest) = fs.advance l rest := by
  simp only [advance, h]

theorem advance_up (h : fs.get? l = some (.directory mode)) :
    fs.advance l (.up :: rest) = fs.advance l.dropLast rest := by
  simp only [advance, h]

theorem advance_down (n : Name) (h : fs.get? l = some (.directory mode)) :
    fs.advance l (.down n :: rest) =
      match fs.get? (l ++ [n]) with
      | none =>
        if rest = [] ∧ n.isStorable then .target (.absent (l ++ [n])) else .failed (missing n)
      | some (.link text) => .link (l ++ [n]) text rest
      | some _ => fs.advance (l ++ [n]) rest := by
  cases hn : fs.get? (l ++ [n]) with
  | none => simp only [advance, h, hn]
  | some e => cases e <;> simp only [advance, h, hn]

theorem get?_of_advance (h : fs.advance l steps = .target (.present k e)) : fs.get? k = some e := by
  fun_induction advance fs l steps <;> simp_all

theorem get?_of_advance_absent (h : fs.advance l steps = .target (.absent k)) : fs.get? k = none := by
  fun_induction advance fs l steps <;> simp_all

theorem get?_of_advance_link {text : String} (h : fs.advance l steps = .link k text rest) :
    fs.get? k = some (.link text) := by
  fun_induction advance fs l steps <;> simp_all

theorem resolve_congr {steps' : List Step} (h : fs.advance l steps = fs.advance k steps') :
    fs.resolve follow links l steps = fs.resolve follow links k steps' := by
  rw [resolve.eq_1 fs follow links l, resolve.eq_1 fs follow links k, h]

theorem resolve_of_target {t : Target} (h : fs.advance l steps = .target t) :
    fs.resolve follow links l steps = .ok t := by
  rw [resolve, h]

theorem resolve_of_failed {number : Errno} (h : fs.advance l steps = .failed number) :
    fs.resolve follow links l steps = .error number := by
  rw [resolve, h]

theorem resolve_of_last_link {text : String} (h : fs.advance l steps = .link k text []) :
    fs.resolve false links l steps = .ok (.present k (.link text)) := by
  rw [resolve, h]
  simp

theorem resolve_of_link_zero {text : String} (h : fs.advance l steps = .link k text rest)
    (hf : rest ≠ [] ∨ follow = true) : fs.resolve follow 0 l steps = .error .linkLoop := by
  have hc : ¬(rest = [] ∧ (!follow) = true) := by
    rcases hf with hf | hf <;> simp [hf]
  rw [resolve, h]
  simp only [hc, ↓reduceIte]

theorem resolve_of_link_succ {text : String} (h : fs.advance l steps = .link k text rest)
    (hf : rest ≠ [] ∨ follow = true) :
    fs.resolve follow (links + 1) l steps =
      fs.resolve follow links (Path.start ⟨text⟩ k.dropLast) (Path.steps ⟨text⟩ ++ rest) := by
  have hc : ¬(rest = [] ∧ (!follow) = true) := by
    rcases hf with hf | hf <;> simp [hf]
  rw [resolve, h]
  simp only [hc, ↓reduceIte]

theorem advance_append (hr : rest ≠ []) (l : Location) (steps : List Step) :
    fs.advance l (steps ++ rest) =
      match fs.advance l steps with
      | .target (.present k _) => fs.advance k rest
      | .target (.absent _) => .failed .notFound
      | .link k text more => .link k text (more ++ rest)
      | .failed number => .failed number := by
  fun_induction advance fs l steps with
  | case1 l e hl => rfl
  | case2 l hl => exact advance_of_none hl
  | case3 l step steps hl => exact advance_of_none hl
  | case4 l steps mode hl ih => rw [List.cons_append, advance_here hl, ih]
  | case5 l steps mode hl ih => rw [List.cons_append, advance_up hl, ih]
  | case6 l steps mode hl n hn hs => simp [advance_down n hl, hn, hr, missing, hs]
  | case7 l steps mode hl n hn hs => simp [advance_down n hl, hn, hr]
  | case8 l steps mode hl n text hn => simp [advance_down n hl, hn]
  | case9 l steps mode hl n e he hn ih =>
    rw [List.cons_append, advance_down n hl, hn]
    cases e with
    | link text => exact absurd rfl (he text)
    | _ => exact ih
  | case10 l step steps e he hl =>
    have hd : e.isDirectory = false := by
      rw [Bool.eq_false_iff, ne_eq, Entry.isDirectory_iff]
      rintro ⟨mode, rfl⟩
      exact he mode rfl
    exact advance_of_not_directory hl hd (by simp)

def Continues (fs : FileSystem) (links : Nat) (l : Location) (steps : List Step) : Prop :=
  (∃ k mode left, fs.resolve true links l steps = .ok (.present k (.directory mode)) ∧
    ∀ follow rest, rest ≠ [] →
      fs.resolve follow links l (steps ++ rest) = fs.resolve follow left k rest) ∨
  ((∀ k mode, fs.resolve true links l steps ≠ .ok (.present k (.directory mode))) ∧
    ∀ follow rest, rest ≠ [] → ∃ number, fs.resolve follow links l (steps ++ rest) = .error number)

theorem continues_of_target {t : Target} (h : fs.advance l steps = .target t) :
    fs.Continues links l steps := by
  cases t with
  | absent k =>
    refine .inr ⟨fun _ _ => by simp [resolve_of_target h], ?_⟩
    intro follow rest hr
    exact ⟨.notFound, resolve_of_failed (by rw [advance_append hr, h])⟩
  | present k e =>
    have happ {rest : List Step} (hr : rest ≠ []) : fs.advance l (steps ++ rest) = fs.advance k rest := by
      rw [advance_append hr, h]
    cases hk : e.isDirectory with
    | true =>
      obtain ⟨mode, rfl⟩ := Entry.isDirectory_iff.1 hk
      refine .inl ⟨k, mode, links, resolve_of_target h, ?_⟩
      intro follow rest hr
      exact resolve_congr (happ hr)
    | false =>
      refine .inr ⟨?_, ?_⟩
      · intro j mode
        rw [resolve_of_target h]
        rintro ⟨⟩
        cases hk
      · intro follow rest hr
        have hstuck := advance_of_not_directory (get?_of_advance h) hk hr
        exact ⟨_, resolve_of_failed ((happ hr).trans hstuck)⟩

theorem continues_of_failed {number : Errno} (h : fs.advance l steps = .failed number) :
    fs.Continues links l steps := by
  refine .inr ⟨fun _ _ => by simp [resolve_of_failed h], ?_⟩
  intro follow rest hr
  exact ⟨number, resolve_of_failed (by rw [advance_append hr, h])⟩

theorem advance_append_link {text : String} {more : List Step} (h : fs.advance l steps = .link k text more)
    (hr : rest ≠ []) : fs.advance l (steps ++ rest) = .link k text (more ++ rest) := by
  rw [advance_append hr, h]

theorem continues (fs : FileSystem) (links : Nat) (l : Location) (steps : List Step) :
    fs.Continues links l steps := by
  induction links generalizing l steps with
  | zero =>
    cases h : fs.advance l steps with
    | target t => exact continues_of_target h
    | failed number => exact continues_of_failed h
    | link k text more =>
      refine .inr ⟨fun _ _ => by simp [resolve_of_link_zero h (.inr rfl)], ?_⟩
      intro follow rest hr
      exact ⟨_, resolve_of_link_zero (advance_append_link h hr) (.inl (by simp [hr]))⟩
  | succ links ih =>
    cases h : fs.advance l steps with
    | target t => exact continues_of_target h
    | failed number => exact continues_of_failed h
    | link k text more =>
      have hgo {follow : Bool} {rest : List Step} (hr : rest ≠ []) :
          fs.resolve follow (links + 1) l (steps ++ rest) =
            fs.resolve follow links (Path.start ⟨text⟩ k.dropLast) ((Path.steps ⟨text⟩ ++ more) ++ rest) := by
        rw [resolve_of_link_succ (advance_append_link h hr) (.inl (by simp [hr])), List.append_assoc]
      have hstop : fs.resolve true (links + 1) l steps = _ := resolve_of_link_succ h (.inr rfl)
      -- the link is replaced by its target, which has one link less to go
      rcases ih (Path.start ⟨text⟩ k.dropLast) (Path.steps ⟨text⟩ ++ more) with
        ⟨j, mode, left, hj, hon⟩ | ⟨hno, herr⟩
      · refine .inl ⟨j, mode, left, hstop.trans hj, ?_⟩
        intro follow rest hr
        rw [hgo hr, hon follow rest hr]
      · refine .inr ⟨?_, ?_⟩
        · intro j mode
          rw [hstop]
          exact hno j mode
        · intro follow rest hr
          rw [hgo hr]
          exact herr follow rest hr

theorem resolve_append (h : fs.resolve true links l steps = .ok (.present k (.directory mode))) :
    ∃ left, ∀ follow rest, rest ≠ [] →
      fs.resolve follow links l (steps ++ rest) = fs.resolve follow left k rest := by
  rcases fs.continues links l steps with ⟨j, mode', left, hj, hon⟩ | ⟨hno, _⟩
  · rw [h] at hj
    cases hj
    exact ⟨left, hon⟩
  · exact absurd h (hno k mode)

theorem exists_directory_of_resolve_append {t : Target} (hr : rest ≠ [])
    (h : fs.resolve follow links l (steps ++ rest) = .ok t) :
    ∃ k mode, fs.resolve true links l steps = .ok (.present k (.directory mode)) := by
  rcases fs.continues links l steps with ⟨j, mode', left, hj, _⟩ | ⟨_, herr⟩
  · exact ⟨j, mode', hj⟩
  · obtain ⟨number, hn⟩ := herr follow rest hr
    simp [h] at hn

theorem get?_of_resolve (h : fs.resolve follow links l steps = .ok (.present k e)) : fs.get? k = some e := by
  fun_induction resolve fs follow links l steps with
  | case1 links l steps t ha =>
    cases h
    exact get?_of_advance ha
  | case2 => cases h
  | case3 links l steps place text rest ha =>
    cases h
    exact get?_of_advance_link ha
  | case4 => cases h
  | case5 l steps place text rest ha hf links target ih => exact ih h

theorem get?_of_resolve_absent (h : fs.resolve follow links l steps = .ok (.absent k)) : fs.get? k = none := by
  fun_induction resolve fs follow links l steps with
  | case1 links l steps t ha =>
    cases h
    exact get?_of_advance_absent ha
  | case2 => cases h
  | case3 => cases h
  | case4 => cases h
  | case5 l steps place text rest ha hf links target ih => exact ih h

theorem entryAt?_eq_some_iff {p : Path} : fs.entryAt? p = some e ↔
    ∃ k, fs.resolve false maxLinks (p.start fs.cwd) p.steps = .ok (.present k e) := by
  rw [entryAt?, place?]
  cases h : fs.resolve false maxLinks (p.start fs.cwd) p.steps with
  | error number => simp [Except.toOption]
  | ok t =>
    cases t with
    | present k e' => simp [Except.toOption, Target.place, get?_of_resolve h]
    | absent k => simp [Except.toOption, Target.place, get?_of_resolve_absent h]

theorem exists_resolve_of_follow (h : fs.resolve true links l steps = .ok (.present k e)) :
    ∃ j e', fs.resolve false links l steps = .ok (.present j e') := by
  generalize hf : true = follow at h
  fun_induction resolve fs follow links l steps with
  | case1 links l steps t ha =>
    cases h
    exact ⟨k, e, resolve_of_target ha⟩
  | case2 => cases h
  | case3 links l steps place text rest ha hlast => simp [← hf] at hlast
  | case4 => cases h
  | case5 l steps place text rest ha hlast links target ih =>
    by_cases hr : rest = []
    · subst hr
      exact ⟨place, _, resolve_of_last_link ha⟩
    · obtain ⟨j, e', hj⟩ := ih h
      exact ⟨j, e', (resolve_of_link_succ ha (.inl hr)).trans hj⟩

theorem toOption_resolve_here (hr : rest ≠ []) : (fs.resolve follow links l (steps ++ .here :: rest)).toOption =
    (fs.resolve follow links l (steps ++ rest)).toOption := by
  rcases fs.continues links l steps with ⟨k, mode, left, hk, hon⟩ | ⟨-, herr⟩
  · rw [hon follow _ (by simp), hon follow _ hr, resolve_congr (advance_here (get?_of_resolve hk))]
  · obtain ⟨number, hn⟩ := herr follow (.here :: rest) (by simp)
    obtain ⟨number', hn'⟩ := herr follow rest hr
    rw [hn, hn']
    rfl

theorem resolve_concat_here {t : Target} : fs.resolve true links l (steps ++ [.here]) = .ok t ↔
    ∃ k mode, t = .present k (.directory mode) ∧
      fs.resolve true links l steps = .ok (.present k (.directory mode)) := by
  have hstay {k : Location} {mode : Nat} (h : fs.resolve true links l steps = .ok (.present k (.directory mode))) :
      fs.resolve true links l (steps ++ [.here]) = .ok (.present k (.directory mode)) := by
    obtain ⟨left, hon⟩ := resolve_append h
    have hk := get?_of_resolve h
    rw [hon true [.here] (by simp)]
    exact resolve_of_target ((advance_here hk).trans (advance_nil hk))
  constructor
  · intro h
    obtain ⟨k, mode, hk⟩ := exists_directory_of_resolve_append (by simp) h
    rw [hstay hk] at h
    cases h
    exact ⟨k, mode, rfl, hk⟩
  · rintro ⟨k, mode, rfl, hk⟩
    exact hstay hk

end DeclBundle.FileSystem
