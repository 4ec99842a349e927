import DeclBundle.Path

/-!
Ordered sets of paths. Two spellings of one path are one member, which keeps the text it came
with: `insert` keeps the text that is there, `ofList` the text that comes last.
-/

namespace DeclBundle

structure PathSet where
  toList : List Path
  increasing : toList.Pairwise fun p q => compare p q = .lt
  deriving Repr

namespace PathSet

def place (replacing : Bool) (p : Path) : List Path → List Path
  | [] => [p]
  | q :: rest =>
    match compare p q with
    | .lt => p :: q :: rest
    | .eq => (if replacing then p else q) :: rest
    | .gt => q :: place replacing p rest

theorem mem_place {replacing : Bool} {p r : Path} {l : List Path} (h : r ∈ place replacing p l) :
    r = p ∨ r ∈ l := by
  induction l with
  | nil => simpa [place] using h
  | cons q rest ih =>
    rw [place] at h
    split at h
    · simpa using h
    · cases replacing <;> simp at h ⊢ <;> grind
    · rcases List.mem_cons.1 h with rfl | h
      · simp
      · rcases ih h with rfl | h <;> simp [*]

theorem increasing_place (replacing : Bool) (p : Path) {l : List Path}
    (h : l.Pairwise fun p q => compare p q = .lt) :
    (place replacing p l).Pairwise fun p q => compare p q = .lt := by
  induction l with
  | nil => simp [place]
  | cons q rest ih =>
    have hq := (List.pairwise_cons.1 h).1
    have hrest := (List.pairwise_cons.1 h).2
    rw [place]
    split
    next hp =>
      refine List.pairwise_cons.2 ⟨fun r hr => ?_, h⟩
      rcases List.mem_cons.1 hr with rfl | hr
      · exact hp
      · exact Std.TransCmp.lt_trans hp (hq r hr)
    next hp =>
      cases replacing
      · exact h
      · exact List.pairwise_cons.2 ⟨fun r hr => Std.TransCmp.lt_of_eq_of_lt hp (hq r hr), hrest⟩
    next hp =>
      refine List.pairwise_cons.2 ⟨fun r hr => ?_, ih hrest⟩
      rcases mem_place hr with rfl | hr
      · exact Std.OrientedCmp.lt_of_gt hp
      · exact hq r hr

def empty : PathSet := ⟨[], .nil⟩

instance : EmptyCollection PathSet := ⟨empty⟩

instance : Inhabited PathSet := ⟨empty⟩

def insert (s : PathSet) (p : Path) : PathSet :=
  ⟨place false p s.toList, increasing_place false p s.increasing⟩

def isFree (p : Path) : List Path → Bool
  | [] => true
  | q :: rest =>
    match compare p q with
    | .lt => true
    | .eq => false
    | .gt => isFree p rest

def isNew (s : PathSet) (p : Path) : Bool :=
  isFree p s.toList

def respell (s : PathSet) (p : Path) : PathSet :=
  ⟨place true p s.toList, increasing_place true p s.increasing⟩

def ofList (paths : List Path) : PathSet :=
  paths.foldl respell empty

def contains (s : PathSet) (p : Path) : Bool :=
  s.toList.any p.same

def size (s : PathSet) : Nat :=
  s.toList.length

def isEmpty (s : PathSet) : Bool :=
  s.toList.isEmpty

def filter (s : PathSet) (keep : Path → Bool) : PathSet :=
  ⟨s.toList.filter keep, s.increasing.filter _⟩

def difference (s other : PathSet) : PathSet :=
  s.filter (!other.contains ·)

def equal (s other : PathSet) : Bool :=
  s.toList.map Path.components = other.toList.map Path.components

def rootsAfter : Option Path → List Path → List Path
  | _, [] => []
  | none, p :: rest => p :: rootsAfter (some p) rest
  | some root, p :: rest =>
    if p.isWithin root then rootsAfter (some root) rest else p :: rootsAfter (some p) rest

theorem rootsAfter_sublist (last : Option Path) (l : List Path) :
    (rootsAfter last l).Sublist l := by
  fun_induction rootsAfter last l with
  | case1 => exact .slnil
  | case2 p rest ih => exact ih.cons_cons p
  | case3 root p rest _ ih => exact ih.cons p
  | case4 root p rest _ ih => exact ih.cons_cons p

def roots (s : PathSet) : PathSet :=
  ⟨rootsAfter none s.toList, s.increasing.sublist (rootsAfter_sublist none s.toList)⟩

/-- What a pass has left over: the paths that are there after it and were not before, except its
bundle. -/
def deletionSet (before after : PathSet) (bundle : Path) : PathSet :=
  after.filter fun p => !p.same bundle && !before.contains p

end PathSet

end DeclBundle
