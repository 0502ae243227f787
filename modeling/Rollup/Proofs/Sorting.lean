import Mathlib.Data.List.Basic

/-!
Sorting by a key. Main statement: where the keys tell the members of a list apart, the sorted list
does not depend on the order that they come in.
-/

namespace Rollup

variable {α κ : Type} [LE κ] [DecidableLE κ] [Std.IsLinearOrder κ] {xs ys : List α}

theorem pairwise_mergeSort_key (key : α → κ) (xs : List α) :
    (xs.mergeSort fun x y => key x ≤ key y).Pairwise fun x y => key x ≤ key y := by
  have trans : ∀ x y z : α, decide (key x ≤ key y) = true → decide (key y ≤ key z) = true →
      decide (key x ≤ key z) = true := by
    intro x y z first second
    exact decide_eq_true (Std.le_trans (of_decide_eq_true first) (of_decide_eq_true second))
  have total : ∀ x y : α, (decide (key x ≤ key y) || decide (key y ≤ key x)) = true := by
    intro x y
    simpa using Std.le_total (a := key x) (b := key y)
  exact (List.pairwise_mergeSort trans total xs).imp of_decide_eq_true

theorem mergeSort_key_congr (key : α → κ)
    (told : ∀ x ∈ xs, ∀ y ∈ xs, key x = key y → x = y) (perm : xs.Perm ys) :
    (ys.mergeSort fun x y => key x ≤ key y) = xs.mergeSort fun x y => key x ≤ key y := by
  have sorted_perm := List.mergeSort_perm xs fun x y => decide (key x ≤ key y)
  have sorted_perm' := List.mergeSort_perm ys fun x y => decide (key x ≤ key y)
  refine List.Perm.eq_of_pairwise ?_ (pairwise_mergeSort_key key ys)
    (pairwise_mergeSort_key key xs) (sorted_perm'.trans (perm.symm.trans sorted_perm.symm))
  intro x y first second before after
  have member : x ∈ xs := perm.mem_iff.mpr (sorted_perm'.mem_iff.mp first)
  have member' : y ∈ xs := sorted_perm.mem_iff.mp second
  exact told x member y member' (Std.le_antisymm before after)

end Rollup
