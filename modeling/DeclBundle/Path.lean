import DeclBundle.Text.Pieces

/-!
Paths as they are written, and the components they are compared by. Spellings such as `a//b`,
`a/./b` and `a/b/` have the same components; a leading `.` is a component of its own, and `..`
is never resolved.
-/

namespace DeclBundle

open Text

def isName (text : String) : Bool :=
  text ≠ "" && text ≠ "." && text ≠ ".." && !text.toList.contains '/'

structure Name where
  text : String
  isName_text : isName text = true
  deriving DecidableEq, Repr

def Name.ofString? (text : String) : Option Name :=
  if h : isName text = true then some ⟨text, h⟩ else none

instance : Ord Name := ⟨compareOn Name.text⟩

def Name.extension (n : Name) : Option String :=
  let reversed := n.text.toList.reverse
  let ending := reversed.takeWhile (· ≠ '.')
  match reversed.drop ending.length with
  | _ :: _ :: _ => some (String.ofList ending.reverse)
  | _ => none

structure Path where
  text : String
  deriving DecidableEq, Repr

namespace Path

inductive Component
  | root
  | current
  | parent
  | name (n : Name)
  deriving DecidableEq, Repr

namespace Component

def rank : Component → Nat
  | root => 0
  | current => 1
  | parent => 2
  | name _ => 3

def label : Component → String
  | name n => n.text
  | _ => ""

instance : Ord Component := ⟨compareLex (compareOn rank) (compareOn label)⟩

instance : Std.TransOrd Component :=
  inferInstanceAs (Std.TransCmp (compareLex (compareOn rank) (compareOn label)))

theorem eq_of_rank_label {a b : Component} (hr : a.rank = b.rank) (hl : a.label = b.label) :
    a = b := by
  cases a with
  | name m =>
    cases b with
    | name n =>
      obtain ⟨m, _⟩ := m
      obtain ⟨n, _⟩ := n
      simp only [label] at hl
      subst hl
      rfl
    | _ => simp [rank] at hr
  | _ => cases b <;> simp_all [rank]

instance : Std.LawfulEqOrd Component where
  eq_of_compare {a b} h := by
    have h : compareLex (compareOn rank) (compareOn label) a b = .eq := h
    rw [compareLex_eq_eq] at h
    exact eq_of_rank_label (Std.LawfulEqOrd.eq_of_compare h.1) (Std.LawfulEqOrd.eq_of_compare h.2)

end Component

inductive Lead
  | absolute
  | current
  | plain
  deriving DecidableEq, Repr

def Lead.components : Lead → List Component
  | absolute => [.root]
  | current => [.current]
  | plain => []

def isSlash (c : Char) : Bool := c = '/'

def segments (p : Path) : List String :=
  (Pieces.cut isSlash p.text.toList).toList.map String.ofList

def split (p : Path) : Lead × List String :=
  match p.segments with
  | "" :: s :: rest => (.absolute, s :: rest)
  | "." :: rest => (.current, rest)
  | rest => (.plain, rest)

def component? (segment : String) : Option Component :=
  if segment = ".." then some .parent else (Name.ofString? segment).map .name

def components (p : Path) : List Component :=
  p.split.1.components ++ p.split.2.filterMap component?

def isAbsolute (p : Path) : Bool :=
  p.split.1 = .absolute

instance : Ord Path := ⟨compareOn components⟩

instance : Std.TransOrd Path :=
  inferInstanceAs (Std.TransCmp (compareOn components))

def same (p q : Path) : Bool :=
  p.components = q.components

def isWithin (p base : Path) : Bool :=
  base.components.isPrefixOf p.components

def fileName (p : Path) : Option Name :=
  match p.components.getLast? with
  | some (.name n) => some n
  | _ => none

def join (base child : Path) : Path :=
  if child.isAbsolute then child
  else if base.text = "" || base.text.toList.getLast? = some '/' then ⟨base.text ++ child.text⟩
  else ⟨base.text ++ "/" ++ child.text⟩

def Lead.rebuild : Lead → List String → Path
  | absolute, [] => ⟨"/"⟩
  | absolute, rest => ⟨"/".intercalate ("" :: rest)⟩
  | current, rest => ⟨"/".intercalate ("." :: rest)⟩
  | plain, rest => ⟨"/".intercalate rest⟩

def dropTrivial (segments : List String) : List String :=
  (segments.reverse.dropWhile (component? · |>.isNone)).reverse

/-- The path without its last component, as it is written up to there. The root and the empty
path have none. -/
def parent (p : Path) : Option Path :=
  match p.split with
  | (lead, body) =>
    match dropTrivial body, lead with
    | [], .current => some ⟨""⟩
    | [], _ => none
    | body, lead => some (lead.rebuild (dropTrivial body.dropLast))

def directory (p : Path) : Path :=
  match p.parent with
  | some parent => if parent.text = "" then ⟨"."⟩ else parent
  | none => ⟨"."⟩

def extension (p : Path) : Option String :=
  p.fileName.bind Name.extension

end Path

end DeclBundle
