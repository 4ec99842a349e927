import DeclBundle.FileSystem.Walk
import DeclBundle.Proofs.FileSystem.Outline

/-!
Trees that are alike from a place down. They hold the same there in the same order, and above the
place they differ at most in which directories are there.
-/

namespace DeclBundle

namespace Location

variable {k l : Location}

def Apart (k l : Location) : Prop :=
  ¬k <+: l ∧ ¬l <+: k

theorem Apart.symm (h : k.Apart l) : l.Apart k :=
  ⟨h.2, h.1⟩

theorem Apart.ne_root (h : k.Apart l) : k ≠ [] := by
  rintro rfl
  exact h.1 List.nil_prefix

theorem Apart.not_prefix_append (h : k.Apart l) (rel : List Name) : ¬l <+: k ++ rel := by
  intro hl
  rcases List.prefix_or_prefix_of_prefix hl (List.prefix_append k rel) with hlk | hkl
  · exact h.2 hlk
  · exact h.1 hkl

theorem Apart.append_right (h : k.Apart l) (rel : List Name) : k.Apart (l ++ rel) :=
  ⟨h.symm.not_prefix_append rel, fun hk => h.2 ((List.prefix_append l rel).trans hk)⟩

end Location

namespace FileSystem

variable {fs fs' gs : FileSystem} {base l k : Location} {e : Entry} {n : Name}

theorem filterMap_filter_places (table : Table) (keep : Location → Bool) (k : Location) :
    (table.filter (keep ·.1)).filterMap (fun (j, _) => if j.dropLast = k then j.getLast? else none) =
      (table.filterMap fun (j, _) => if j.dropLast = k then j.getLast? else none).filter
        fun n => keep (k ++ [n]) := by
  rw [List.filterMap_filter, List.filter_filterMap]
  congr 1
  funext ⟨j, e⟩
  dsimp only
  by_cases hj : j.dropLast = k
  · rw [if_pos hj]
    cases hn : j.getLast? with
    | none => simp
    | some n =>
      obtain ⟨front, rfl⟩ := List.getLast?_eq_some_iff.1 hn
      rw [List.dropLast_concat] at hj
      subst hj
      simp [Option.filter]
  · simp [hj]

theorem children_erase (fs : FileSystem) (l k : Location) :
    (fs.erase l).children k = (fs.children k).filter fun n => !l.isPrefixOf (k ++ [n]) :=
  filterMap_filter_places fs.table (fun j => !l.isPrefixOf j) k

theorem children_clear (fs : FileSystem) (l k : Location) :
    (fs.clear l).children k = (fs.children k).filter fun n => !Location.isBelow (k ++ [n]) l :=
  filterMap_filter_places fs.table (fun j => !j.isBelow l) k

theorem children_put (h : fs.Takes (l ++ [n]) e) (k : Location) : (fs.put (l ++ [n]) e).children k =
    (if l = k then [n] else []) ++ (fs.children k).filter fun m => decide (k ++ [m] ≠ l ++ [n]) := by
  have hrest := filterMap_filter_places fs.table (fun j => decide (j ≠ l ++ [n])) k
  rw [children, put, dif_pos h, children, ← hrest]
  by_cases hk : l = k
  · rw [List.filterMap_cons_some (b := n) (by simp [hk]), if_pos hk]
    rfl
  · rw [List.filterMap_cons_none (by simp [hk]), if_neg hk]
    rfl

def Enterable (fs : FileSystem) (k : Location) : Prop :=
  fs.get? k = none ∨ fs.isDirectoryAt k = true

structure Alike (fs fs' : FileSystem) (base : Location) : Prop where
  cwd_eq : fs.cwd = fs'.cwd
  get?_eq : ∀ rel, fs.get? (base ++ rel) = fs'.get? (base ++ rel)
  children_eq : ∀ rel, fs.children (base ++ rel) = fs'.children (base ++ rel)
  above : ∀ k, k <+: base → fs.get? k = fs'.get? k ∨ fs.Enterable k ∧ fs'.Enterable k

theorem Enterable.congr (h : fs.Enterable k) (heq : fs.get? k = fs'.get? k) : fs'.Enterable k := by
  rwa [Enterable, isDirectoryAt_congr heq, heq] at h

theorem Alike.refl (fs : FileSystem) (base : Location) : Alike fs fs base :=
  ⟨rfl, fun _ => rfl, fun _ => rfl, fun _ _ => .inl rfl⟩

theorem Alike.symm (h : Alike fs fs' base) : Alike fs' fs base where
  cwd_eq := h.cwd_eq.symm
  get?_eq rel := (h.get?_eq rel).symm
  children_eq rel := (h.children_eq rel).symm
  above k hk := (h.above k hk).imp Eq.symm And.symm

theorem Alike.trans (h : Alike fs fs' base) (h' : Alike fs' gs base) : Alike fs gs base where
  cwd_eq := h.cwd_eq.trans h'.cwd_eq
  get?_eq rel := (h.get?_eq rel).trans (h'.get?_eq rel)
  children_eq rel := (h.children_eq rel).trans (h'.children_eq rel)
  above k hk := by
    rcases h.above k hk with heq | ⟨he, hm⟩
    · rcases h'.above k hk with heq' | ⟨hm, hg⟩
      · exact .inl (heq.trans heq')
      · exact .inr ⟨hm.congr heq.symm, hg⟩
    · rcases h'.above k hk with heq' | ⟨-, hg⟩
      · exact .inr ⟨he, hm.congr heq'⟩
      · exact .inr ⟨he, hg⟩

theorem Alike.get?_of_prefix (h : Alike fs fs' base) (hk : base <+: k) : fs.get? k = fs'.get? k := by
  obtain ⟨rel, rfl⟩ := hk
  exact h.get?_eq rel

theorem Alike.enterable (h : Alike fs fs' base) (hk : k <+: base ∨ base <+: k) (he : fs.Enterable k) :
    fs'.Enterable k := by
  rcases hk with hk | hk
  · rcases h.above k hk with heq | ⟨-, he'⟩
    · exact he.congr heq
    · exact he'
  · exact he.congr (h.get?_of_prefix hk)

theorem Enterable.ne_link (h : fs.Enterable k) (text : String) : fs.get? k ≠ some (.link text) := by
  rcases h with hnone | hd
  · simp [hnone]
  · obtain ⟨mode, hm⟩ := isDirectoryAt_iff_get?.1 hd
    simp [hm]

theorem Alike.ne_link (h : Alike fs fs' base) (hk : k <+: base ∨ base <+: k) {text : String}
    (hne : fs.get? k ≠ some (.link text)) : fs'.get? k ≠ some (.link text) := by
  rcases hk with hk | hk
  · rcases h.above k hk with heq | ⟨-, he⟩
    · rwa [← heq]
    · exact he.ne_link text
  · rwa [← h.get?_of_prefix hk]

theorem Alike.freeOfLinks (h : Alike fs fs' base) {rel : List Name} (hfree : fs.FreeOfLinks (base ++ rel)) :
    fs'.FreeOfLinks (base ++ rel) := by
  intro k hk text
  exact h.ne_link (List.prefix_or_prefix_of_prefix hk (List.prefix_append _ _)) (hfree k hk text)

theorem FreeOfLinks.append_nil (h : fs.FreeOfLinks l) : fs.FreeOfLinks (l ++ []) := by
  rwa [List.append_nil]

theorem Alike.put (h : Alike fs fs' base) (ht : fs.Takes (l ++ [n]) e) (ht' : fs'.Takes (l ++ [n]) e) :
    Alike (fs.put (l ++ [n]) e) (fs'.put (l ++ [n]) e) base where
  cwd_eq := by
    rw [FileSystem.put, FileSystem.put, dif_pos ht, dif_pos ht']
    exact h.cwd_eq
  get?_eq rel := by rw [get?_put ht, get?_put ht', h.get?_eq]
  children_eq rel := by rw [children_put ht, children_put ht', h.children_eq]
  above k hk := by
    rw [Enterable, Enterable, isDirectoryAt, isDirectoryAt, get?_put ht, get?_put ht']
    split
    · exact .inl rfl
    · exact h.above k hk

theorem Alike.erase (h : Alike fs fs' base) (l : Location) : Alike (fs.erase l) (fs'.erase l) base where
  cwd_eq := h.cwd_eq
  get?_eq rel := by rw [get?_erase, get?_erase, h.get?_eq]
  children_eq rel := by rw [children_erase, children_erase, h.children_eq]
  above k hk := by
    rw [Enterable, Enterable, isDirectoryAt, isDirectoryAt, get?_erase, get?_erase]
    split
    · exact .inl rfl
    · exact h.above k hk

theorem Alike.clear (h : Alike fs fs' base) (l : Location) : Alike (fs.clear l) (fs'.clear l) base where
  cwd_eq := h.cwd_eq
  get?_eq rel := by rw [get?_clear, get?_clear, h.get?_eq]
  children_eq rel := by rw [children_clear, children_clear, h.children_eq]
  above k hk := by
    rw [Enterable, Enterable, isDirectoryAt, isDirectoryAt, get?_clear, get?_clear]
    split
    · exact .inl rfl
    · exact h.above k hk

theorem Alike.takes (h : Alike fs fs' base) {rel : List Name} (ht : fs.Takes (base ++ rel ++ [n]) e) :
    fs'.Takes (base ++ rel ++ [n]) e where
  inside := by
    have hinside := ht.inside
    rw [List.dropLast_concat] at hinside ⊢
    rwa [← isDirectoryAt_congr (h.get?_eq rel)]
  named := ht.named
  roomy := by
    apply ht.roomy.imp_right
    intro hfree
    apply isOccupied_eq_false_iff.2
    intro k hk
    have hnone := isOccupied_eq_false_iff.1 hfree k hk
    rw [List.append_assoc, List.append_assoc] at hnone ⊢
    rwa [← h.get?_eq]

theorem Alike.put_below (h : Alike fs fs' base) {b : Location} (hb : Alike fs fs' b) (rel : List Name) (n : Name)
    (e : Entry) : Alike (fs.put (base ++ rel ++ [n]) e) (fs'.put (base ++ rel ++ [n]) e) b := by
  by_cases ht : fs.Takes (base ++ rel ++ [n]) e
  · exact hb.put ht (h.takes ht)
  · have ht' : ¬fs'.Takes (base ++ rel ++ [n]) e := fun ht' => ht (h.symm.takes ht')
    rwa [FileSystem.put, FileSystem.put, dif_neg ht, dif_neg ht']

theorem alike_put (h : ¬base <+: l ++ [n])
    (habove : l ++ [n] <+: base → fs.Enterable (l ++ [n]) ∧ e.isDirectory = true) :
    Alike fs (fs.put (l ++ [n]) e) base := by
  by_cases ht : fs.Takes (l ++ [n]) e
  · have hne (rel : List Name) : base ++ rel ≠ l ++ [n] := fun heq => h ⟨rel, heq⟩
    constructor
    case cwd_eq =>
      rw [FileSystem.put, dif_pos ht]
    case get?_eq =>
      intro rel
      rw [get?_put ht, if_neg (hne rel)]
    case children_eq =>
      intro rel
      have hparent : l ≠ base ++ rel := by
        rintro rfl
        exact hne (rel ++ [n]) (List.append_assoc _ _ _).symm
      have hname : ∀ m ∈ fs.children (base ++ rel), decide (base ++ rel ++ [m] ≠ l ++ [n]) = true := by
        intro m _
        rw [List.append_assoc]
        simpa using hne (rel ++ [m])
      rw [children_put ht, if_neg hparent, List.nil_append, List.filter_eq_self.2 hname]
    case above =>
      intro k hk
      rw [Enterable, Enterable, isDirectoryAt, isDirectoryAt, get?_put ht]
      by_cases hkl : k = l ++ [n]
      · subst hkl
        obtain ⟨henter, he⟩ := habove hk
        exact .inr ⟨henter, .inr (by simp [he])⟩
      · rw [if_neg hkl]
        exact .inl rfl
  · rw [FileSystem.put, dif_neg ht]
    exact .refl fs base

theorem alike_put_of_apart (h : base.Apart (l ++ [n])) (e : Entry) : Alike fs (fs.put (l ++ [n]) e) base :=
  alike_put h.1 fun hl => absurd hl h.2

theorem alike_erase (h : base.Apart l) : Alike fs (fs.erase l) base where
  cwd_eq := rfl
  get?_eq rel := by rw [get?_erase, if_neg fun hl => h.not_prefix_append rel hl.1]
  children_eq rel := by
    have hkept : ∀ m ∈ fs.children (base ++ rel), (!l.isPrefixOf (base ++ rel ++ [m])) = true := by
      intro m _
      rw [Bool.not_eq_true', Bool.eq_false_iff, ne_eq, List.isPrefixOf_iff_prefix, List.append_assoc]
      exact h.not_prefix_append _
    rw [children_erase, List.filter_eq_self.2 hkept]
  above k hk := by
    rw [get?_erase, if_neg fun hl => h.2 (hl.1.trans hk)]
    exact .inl rfl

theorem alike_clear (h : base.Apart l) : Alike fs (fs.clear l) base where
  cwd_eq := rfl
  get?_eq rel := by rw [get?_clear, if_neg fun hl => h.not_prefix_append rel (isBelow_iff.1 hl).1]
  children_eq rel := by
    have hkept : ∀ m ∈ fs.children (base ++ rel), (!Location.isBelow (base ++ rel ++ [m]) l) = true := by
      intro m _
      rw [Bool.not_eq_true', Bool.eq_false_iff, ne_eq, isBelow_iff, List.append_assoc]
      exact fun hl => h.not_prefix_append _ hl.1
    rw [children_clear, List.filter_eq_self.2 hkept]
  above k hk := by
    rw [get?_clear, if_neg fun hl => h.2 ((isBelow_iff.1 hl).1.trans hk)]
    exact .inl rfl

end FileSystem

end DeclBundle
