/-!
Cutting a list into consecutive groups of one size. Main statements: joined again the groups are
the list, none is empty, and none exceeds the size.
-/

namespace Rollup

/-- Groups of `size` elements, the last one possibly shorter. -/
def groups {α : Type} (size : Nat) : List α → List (List α)
  | [] => []
  | x :: xs => (x :: xs.take (size - 1)) :: groups size (xs.drop (size - 1))
termination_by xs => xs.length
decreasing_by
  simp only [List.length_drop, List.length_cons]
  omega

variable {α : Type} {size : Nat}

theorem flatten_groups (size : Nat) (xs : List α) : (groups size xs).flatten = xs := by
  fun_induction groups size xs with
  | case1 => rfl
  | case2 x xs ih => simp [ih]

theorem ne_nil_of_mem_groups {group xs : List α} (mem : group ∈ groups size xs) : group ≠ [] := by
  fun_induction groups size xs with
  | case1 => simp at mem
  | case2 x xs ih =>
    rcases List.mem_cons.mp mem with rfl | later
    · simp
    · exact ih later

theorem length_le_of_mem_groups {group xs : List α} (positive : 0 < size)
    (mem : group ∈ groups size xs) : group.length ≤ size := by
  fun_induction groups size xs with
  | case1 => simp at mem
  | case2 x xs ih =>
    rcases List.mem_cons.mp mem with rfl | later
    · simp only [List.length_cons, List.length_take]
      omega
    · exact ih later

end Rollup
