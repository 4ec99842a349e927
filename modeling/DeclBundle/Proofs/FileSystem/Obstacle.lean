import DeclBundle.Proofs.FileSystem.Alike

namespace DeclBundle.FileSystem

variable {fs : FileSystem} {base d l k : Location} {rel : List Name} {steps : List Step} {n : Name}

def obstacle (fs : FileSystem) (base : Location) : List Name → Errno
  | [] => .notFound
  | n :: rest =>
    match fs.get? (base ++ [n]) with
    | none => missing n
    | some (.directory _) => obstacle fs (base ++ [n]) rest
    | some _ => .notDirectory

theorem obstacle_cons_of_directory (h : fs.isDirectoryAt (base ++ [n]) = true) (rest : List Name) :
    fs.obstacle base (n :: rest) = fs.obstacle (base ++ [n]) rest := by
  obtain ⟨mode, hm⟩ := isDirectoryAt_iff_get?.1 h
  rw [obstacle, hm]

theorem obstacle_append_of_directory (h : fs.isDirectoryAt (base ++ rel) = true) (rest : List Name) :
    fs.obstacle base (rel ++ rest) = fs.obstacle (base ++ rel) rest := by
  induction rel generalizing base with
  | nil => simp
  | cons n rel ih =>
    rw [List.append_cons] at h
    have hn := isDirectoryAt_above h (List.prefix_append (base ++ [n]) rel)
    rw [List.cons_append, obstacle_cons_of_directory hn, ih h, List.append_cons base n rel]

theorem obstacle_append_of_not_directory (hbase : fs.isDirectoryAt base = true)
    (h : fs.isDirectoryAt (base ++ rel) = false) (rest : List Name) :
    fs.obstacle base (rel ++ rest) = fs.obstacle base rel := by
  induction rel generalizing base with
  | nil => simp [hbase] at h
  | cons n rel ih =>
    rw [List.append_cons] at h
    rw [List.cons_append, obstacle, obstacle]
    cases hn : fs.get? (base ++ [n]) with
    | none => rfl
    | some e =>
      cases e with
      | directory mode => exact ih (isDirectoryAt_iff_get?.2 ⟨mode, hn⟩) h
      | _ => rfl

theorem advance_obstacle (hbase : fs.isDirectoryAt base = true) (h : fs.isDirectoryAt (base ++ rel) = false)
    (hfree : ∀ k, k <+: rel → ∀ text, fs.get? (base ++ k) ≠ some (.link text)) (hsteps : steps ≠ []) :
    fs.advance base (rel.map .down ++ steps) = .failed (fs.obstacle base rel) := by
  induction rel generalizing base with
  | nil => simp [hbase] at h
  | cons n rel ih =>
    obtain ⟨mode, hm⟩ := isDirectoryAt_iff_get?.1 hbase
    have hlink := hfree [n] (by simp)
    rw [List.append_cons] at h
    rw [List.map_cons, List.cons_append, advance_down n hm, obstacle]
    cases hn : fs.get? (base ++ [n]) with
    | none => simp [hsteps]
    | some e =>
      cases e with
      | link text => exact absurd hn (hlink text)
      | file content mode' => exact advance_of_not_directory hn rfl (by simp [hsteps])
      | directory mode' =>
        apply ih (isDirectoryAt_iff_get?.2 ⟨mode', hn⟩) h
        intro k hk text
        rw [List.append_assoc, List.singleton_append]
        exact hfree (n :: k) (by simpa using hk) text

theorem resolve_obstacle {follow : Bool} {links : Nat} (hd : fs.isDirectoryAt d = false) (hfree : fs.FreeOfLinks d)
    (hsteps : steps ≠ []) :
    fs.resolve follow links [] (d.map .down ++ steps) = .error (fs.obstacle [] d) := by
  have hroot : fs.isDirectoryAt [] = true := isDirectoryAt_iff_get?.2 ⟨_, get?_root fs⟩
  exact resolve_of_failed (advance_obstacle hroot (by simpa using hd) (fun k hk => hfree k hk) hsteps)

theorem find_path_of_free {follow : Bool} (hfree : fs.FreeOfLinks l) (ha : accept l.path = .ok ()) :
    fs.find follow l.path =
      match fs.get? l with
      | some e => .ok (l, e)
      | none => .error (.os (fs.obstacle [] l)) := by
  cases hl : fs.get? l with
  | some e =>
    apply find_path ha hl
    right
    cases e with
    | link text => exact absurd hl (hfree l (List.prefix_refl l) text)
    | _ => rfl
  | none =>
    rcases List.eq_nil_or_concat l with rfl | ⟨d, n, rfl⟩
    · simp at hl
    · rw [List.concat_eq_append] at *
      rw [find, locate, ha, Location.start_path, resolve_steps_path, Results.ok_bind, List.map_append]
      cases hd : fs.isDirectoryAt d with
      | false =>
        have hroot : fs.isDirectoryAt [] = true := isDirectoryAt_iff_get?.2 ⟨_, get?_root fs⟩
        rw [resolve_obstacle hd (hfree.above (List.prefix_append _ _)) (by simp),
          obstacle_append_of_not_directory hroot (by simpa using hd)]
        rfl
      | true =>
        have hmissing : fs.obstacle [] (d ++ [n]) = missing n := by
          rw [obstacle_append_of_directory (by simpa using hd), List.nil_append, obstacle, hl]
        rw [← List.map_append, (leadsTo_self hd).resolve_concat_of_none hl, hmissing, missing]
        split <;> rfl

theorem obstacle_of_enterable (h : ∀ k, k <+: rel → fs.Enterable (base ++ k)) (hnames : ∀ n ∈ rel, n.isStorable = true) :
    fs.obstacle base rel = .notFound := by
  induction rel generalizing base with
  | nil => rfl
  | cons n rel ih =>
    rw [obstacle]
    rcases h [n] (by simp) with hnone | hd
    · simp [hnone, missing, hnames n List.mem_cons_self]
    · obtain ⟨mode, hm⟩ := isDirectoryAt_iff_get?.1 hd
      rw [hm]
      apply ih
      · intro k hk
        rw [List.append_assoc, List.singleton_append]
        exact h (n :: k) (by simpa using hk)
      · intro m hm
        exact hnames m (List.mem_cons_of_mem _ hm)

theorem obstacle_of_not_enterable (hk : k <+: rel) (h : ¬fs.Enterable (base ++ k)) (hbase : fs.isDirectoryAt base = true) :
    fs.obstacle base rel = .notDirectory := by
  induction rel generalizing base k with
  | nil =>
    rw [List.prefix_nil.1 hk, List.append_nil] at h
    exact absurd (.inr hbase) h
  | cons n rel ih =>
    cases k with
    | nil =>
      rw [List.append_nil] at h
      exact absurd (.inr hbase) h
    | cons m k =>
      obtain ⟨rfl, hrest⟩ := List.cons_prefix_cons.1 hk
      rw [List.append_cons] at h
      rw [obstacle]
      cases hn : fs.get? (base ++ [m]) with
      | none => exact absurd (.inl (get?_below_eq_none hn (List.prefix_append _ _))) h
      | some e =>
        cases e with
        | directory mode => exact ih hrest h (isDirectoryAt_iff_get?.2 ⟨mode, hn⟩)
        | _ => rfl

end DeclBundle.FileSystem
