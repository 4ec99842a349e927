import DeclBundle.Path

/-!
The orders that a pass leaves open: in which a directory lists its names, and in which tasks that
run at the same time are done. Nothing that a pass gives may depend on them.
-/

namespace DeclBundle

structure Schedule where
  listing : List Name → List Name
  reads : Nat → List Nat
  removals : Nat → List Nat
  listing_perm : ∀ names, (listing names).Perm names
  reads_perm : ∀ n, (reads n).Perm (List.range n)
  removals_perm : ∀ n, (removals n).Perm (List.range n)

def Schedule.inOrder : Schedule where
  listing := id
  reads := List.range
  removals := List.range
  listing_perm _ := .refl _
  reads_perm _ := .refl _
  removals_perm _ := .refl _

def Schedule.reversed : Schedule where
  listing := List.reverse
  reads n := (List.range n).reverse
  removals n := (List.range n).reverse
  listing_perm := List.reverse_perm
  reads_perm n := List.reverse_perm (List.range n)
  removals_perm n := List.reverse_perm (List.range n)

end DeclBundle
