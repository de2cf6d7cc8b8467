import Mathlib

/-!
# Ordered keys

A linear order is a lawful key order for the ordered maps of the standard
library, and sorting by it forgets the order a list came in.
-/

namespace Hexroute.Lib

universe u

instance linearOrder_lawfulEqOrd {α : Type u} [LinearOrder α] :
    Std.LawfulEqOrd α where
  eq_of_compare := compare_eq_iff_eq.mp

theorem insertionSort_eq_of_perm
    {α : Type u} [LinearOrder α] {left right : List α}
    (same : left.Perm right) :
    left.insertionSort (· ≤ ·) = right.insertionSort (· ≤ ·) :=
  List.Perm.eq_of_pairwise' (List.pairwise_insertionSort (· ≤ ·) left)
    (List.pairwise_insertionSort (· ≤ ·) right)
    (((List.perm_insertionSort _ left).trans same).trans
      (List.perm_insertionSort _ right).symm)

end Hexroute.Lib
