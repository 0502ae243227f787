import Mathlib.Data.List.Forall2
import Rollup.Groups

/-!
The groups of a list are its only split into full groups and a last one that may be shorter. So
groups of groups are groups of the product of the sizes, and a list that ends with a full group is
cut alike whatever comes after it. A function that may fail on a group answers for all groups
exactly if it answers for each.
-/

namespace Rollup

variable {α β : Type} {size : Nat}

/-- Consecutive groups that make up a list: none is empty or too long, and all but the last are
full. -/
structure IsSplit (size : Nat) (xs : List α) (parts : List (List α)) : Prop where
  joined : parts.flatten = xs
  nonempty : ∀ part ∈ parts, part ≠ []
  bounded : ∀ part ∈ parts, part.length ≤ size
  full : ∀ part ∈ parts.dropLast, part.length = size

theorem length_of_mem_dropLast_groups {group xs : List α} (positive : 0 < size)
    (member : group ∈ (groups size xs).dropLast) : group.length = size := by
  fun_induction groups size xs with
  | case1 => simp at member
  | case2 x xs ih =>
    cases rest : groups size (xs.drop (size - 1)) with
    | nil => simp [rest] at member
    | cons next others =>
      rw [rest, List.dropLast_cons_of_ne_nil (by simp)] at member
      rcases List.mem_cons.mp member with rfl | later
      · have left : xs.drop (size - 1) ≠ [] := by
          intro none
          rw [none, groups] at rest
          cases rest
        have long : size - 1 < xs.length := by
          rw [ne_eq, List.drop_eq_nil_iff] at left
          omega
        simp only [List.length_cons, List.length_take]
        omega
      · exact ih (by rwa [rest])

theorem isSplit_groups (positive : 0 < size) (xs : List α) : IsSplit size xs (groups size xs) where
  joined := flatten_groups size xs
  nonempty := fun _ => ne_nil_of_mem_groups
  bounded := fun _ => length_le_of_mem_groups positive
  full := fun _ => length_of_mem_dropLast_groups positive

/-- The first group is a full one whenever another follows, so the cut after it is forced. -/
theorem IsSplit.eq_groups {xs : List α} {parts : List (List α)} (positive : 0 < size)
    (split : IsSplit size xs parts) : parts = groups size xs := by
  induction parts generalizing xs with
  | nil =>
    have none : xs = [] := split.joined.symm
    rw [none, groups]
  | cons part rest ih =>
    have bounded := split.bounded part (by simp)
    obtain ⟨x, tail, rfl⟩ := List.exists_cons_of_ne_nil (split.nonempty part (by simp))
    have joined : x :: (tail ++ rest.flatten) = xs := by simpa using split.joined
    subst joined
    rw [groups]
    cases rest with
    | nil =>
      have short : tail.length ≤ size - 1 := by
        rw [List.length_cons] at bounded
        omega
      simp [List.take_of_length_le short, List.drop_of_length_le short, groups]
    | cons next others =>
      have length : tail.length = size - 1 := by
        have full := split.full (x :: tail) (by simp [List.dropLast])
        rw [List.length_cons] at full
        omega
      rw [← length, List.take_left, List.drop_left]
      congr 1
      apply ih
      constructor
      · rfl
      · intro p member
        exact split.nonempty p (List.mem_cons_of_mem _ member)
      · intro p member
        exact split.bounded p (List.mem_cons_of_mem _ member)
      · intro p member
        apply split.full p
        rw [List.dropLast_cons_of_ne_nil (by simp)]
        exact List.mem_cons_of_mem _ member

theorem length_groups (positive : 0 < size) (xs : List α) :
    (groups size xs).length = (xs.length + size - 1) / size := by
  fun_induction groups size xs with
  | case1 =>
    have short : size - 1 < size := by omega
    simp [Nat.div_eq_of_lt short]
  | case2 x xs ih =>
    have next : xs.length + 1 + size - 1 = xs.length + size := by omega
    rw [List.length_cons, List.length_cons, ih, List.length_drop, next,
      Nat.add_div_right _ positive]
    by_cases long : size - 1 ≤ xs.length
    · have left : xs.length - (size - 1) + size - 1 = xs.length := by omega
      rw [left]
    · have short : xs.length < size := by omega
      have none : xs.length - (size - 1) + size - 1 < size := by omega
      rw [Nat.div_eq_of_lt short, Nat.div_eq_of_lt none]

/-- A list of whole groups is cut as if nothing came after it. -/
theorem groups_append {xs : List α} (whole : size ∣ xs.length) (ys : List α) :
    groups size (xs ++ ys) = groups size xs ++ groups size ys := by
  fun_induction groups size xs with
  | case1 => rfl
  | case2 x xs ih =>
    rw [List.length_cons] at whole
    have enough : size - 1 ≤ xs.length := by
      have := Nat.le_of_dvd (Nat.succ_pos _) whole
      omega
    have rest : size ∣ (xs.drop (size - 1)).length := by
      have positive := Nat.pos_of_dvd_of_pos whole (Nat.succ_pos _)
      have left : (xs.drop (size - 1)).length = xs.length + 1 - size := by
        rw [List.length_drop]
        omega
      rw [left]
      exact Nat.dvd_sub whole (Nat.dvd_refl size)
    rw [List.cons_append, groups, List.take_append_of_le_length enough,
      List.drop_append_of_le_length enough, ih rest, List.cons_append]

theorem groups_map (f : α → β) (xs : List α) :
    groups size (xs.map f) = (groups size xs).map (List.map f) := by
  fun_induction groups size xs with
  | case1 => simp [groups]
  | case2 x xs ih => simp only [List.map_cons, groups, ← List.map_take, ← List.map_drop, ih]

theorem groups_one (xs : List α) : groups 1 xs = xs.map fun x => [x] := by
  induction xs with
  | nil => simp [groups]
  | cons x xs ih => simp [groups, ih]

theorem length_flatten_le {parts : List (List α)} (bounded : ∀ part ∈ parts, part.length ≤ size) :
    parts.flatten.length ≤ parts.length * size := by
  induction parts with
  | nil => simp
  | cons part parts ih =>
    rw [List.forall_mem_cons] at bounded
    have rest := ih bounded.2
    rw [List.flatten_cons, List.length_append, List.length_cons, Nat.add_mul, Nat.one_mul]
    omega

theorem length_flatten_eq {parts : List (List α)} (full : ∀ part ∈ parts, part.length = size) :
    parts.flatten.length = parts.length * size := by
  induction parts with
  | nil => simp
  | cons part parts ih =>
    rw [List.forall_mem_cons] at full
    rw [List.flatten_cons, List.length_append, List.length_cons, Nat.add_mul, Nat.one_mul,
      full.1, ih full.2, Nat.add_comm]

theorem mem_dropLast_flatten {x : α} {part : List α} {parts : List (List α)}
    (nonempty : ∀ part ∈ parts, part ≠ []) (early : part ∈ parts.dropLast) (member : x ∈ part) :
    x ∈ parts.flatten.dropLast := by
  obtain ⟨before, last, rfl⟩ : ∃ before last, parts = before ++ [last] := by
    have some_part : parts ≠ [] := by
      rintro rfl
      cases early
    exact ⟨_, _, (List.dropLast_concat_getLast some_part).symm⟩
  rw [List.dropLast_concat] at early
  have some_last : last ≠ [] := nonempty last (by simp)
  rw [List.flatten_concat, List.dropLast_append_of_ne_nil some_last]
  exact List.mem_append_left _ (List.mem_flatten.mpr ⟨part, early, member⟩)

/-- Groups of groups are groups of the samples, short ones only at the end on both levels. -/
theorem isSplit_groups_groups {inner outer : Nat} (some_inner : 0 < inner) (some_outer : 0 < outer)
    (xs : List α) :
    IsSplit (inner * outer) xs ((groups outer (groups inner xs)).map List.flatten) := by
  have fine := isSplit_groups some_inner xs
  have coarse := isSplit_groups some_outer (groups inner xs)
  have inside {parts : List (List α)} (among : parts ∈ groups outer (groups inner xs)) :
      ∀ part ∈ parts, part ∈ groups inner xs := by
    intro part member
    rw [← coarse.joined]
    exact List.mem_flatten.mpr ⟨parts, among, member⟩
  constructor
  · rw [← List.flatten_flatten, coarse.joined, fine.joined]
  · intro group member
    obtain ⟨parts, among, rfl⟩ := List.mem_map.mp member
    obtain ⟨part, member⟩ := List.exists_mem_of_ne_nil parts (coarse.nonempty parts among)
    intro none
    exact fine.nonempty part (inside among part member)
      (List.flatten_eq_nil_iff.mp none part member)
  · intro group member
    obtain ⟨parts, among, rfl⟩ := List.mem_map.mp member
    calc
      parts.flatten.length ≤ parts.length * inner :=
        length_flatten_le fun part member => fine.bounded part (inside among part member)
      _ ≤ outer * inner := Nat.mul_le_mul_right inner (coarse.bounded parts among)
      _ = inner * outer := Nat.mul_comm outer inner
  · intro group member
    rw [← List.map_dropLast] at member
    obtain ⟨parts, early, rfl⟩ := List.mem_map.mp member
    have full : ∀ part ∈ parts, part.length = inner := by
      intro part member
      apply fine.full part
      rw [← coarse.joined]
      exact mem_dropLast_flatten coarse.nonempty early member
    rw [length_flatten_eq full, coarse.full parts early, Nat.mul_comm]

theorem groups_mul {inner outer : Nat} (some_inner : 0 < inner) (some_outer : 0 < outer)
    (xs : List α) :
    groups (inner * outer) xs = (groups outer (groups inner xs)).map List.flatten :=
  ((isSplit_groups_groups some_inner some_outer xs).eq_groups
    (Nat.mul_pos some_inner some_outer)).symm

theorem forall_of_forall₂ {α β : Type} {related : α → β → Prop} {holds : α → Prop} {xs : List α}
    {ys : List β} (pairs : List.Forall₂ related xs ys)
    (each : ∀ x y, related x y → holds x) : ∀ x ∈ xs, holds x := by
  induction pairs with
  | nil =>
    intro x none
    cases none
  | cons first _ ih =>
    intro x member
    rcases List.mem_cons.mp member with rfl | later
    · exact each _ _ first
    · exact ih x later

theorem mapM_eq_ok_iff {ε : Type} {f : α → Except ε β} {xs : List α} {ys : List β} :
    xs.mapM f = .ok ys ↔ List.Forall₂ (fun x y => f x = .ok y) xs ys := by
  induction xs generalizing ys with
  | nil => simp [pure, Except.pure, eq_comm]
  | cons x xs ih =>
    rw [List.mapM_cons, List.forall₂_cons_left_iff]
    cases head : f x with
    | error reason => simp [bind, Except.bind]
    | ok y =>
      cases tail : xs.mapM f with
      | error reason =>
        have none (rest : List β) : ¬ List.Forall₂ (fun x y => f x = .ok y) xs rest := by
          rw [← ih, tail]
          simp
        simp [bind, Except.bind, none]
      | ok rest =>
        have same (others : List β) :
            List.Forall₂ (fun x y => f x = .ok y) xs others ↔ rest = others := by
          rw [← ih, tail, Except.ok.injEq]
        simp [bind, Except.bind, pure, Except.pure, same, eq_comm]

theorem mapM_map_outcome {γ ε : Type} (f : α → Except ε β) (g : β → γ) (xs : List α) :
    (xs.mapM fun x => (f x).map g) = (xs.mapM f).map (List.map g) := by
  induction xs with
  | nil => rfl
  | cons x xs ih =>
    rw [List.mapM_cons, List.mapM_cons, ih]
    cases f x with
    | error reason => rfl
    | ok y => cases xs.mapM f <;> rfl

/-- A computation over a list fails at the first element that it fails on. -/
theorem mapM_eq_error_iff {ε : Type} {f : α → Except ε β} {xs : List α} {reason : ε} :
    xs.mapM f = .error reason ↔
      ∃ before x after, xs = before ++ x :: after ∧ (∀ y ∈ before, ∃ z, f y = .ok z) ∧
        f x = .error reason := by
  constructor
  · intro failed
    induction xs with
    | nil => cases failed
    | cons x xs ih =>
      rw [List.mapM_cons] at failed
      cases head : f x with
      | error other =>
        rw [head] at failed
        cases failed
        exact ⟨[], x, xs, rfl, by simp, head⟩
      | ok z =>
        cases tail : xs.mapM f with
        | error other =>
          rw [head, tail] at failed
          cases failed
          obtain ⟨before, y, after, rfl, answered, failed⟩ := ih tail
          refine ⟨x :: before, y, after, rfl, ?_, failed⟩
          rw [List.forall_mem_cons]
          exact ⟨⟨z, head⟩, answered⟩
        | ok zs =>
          rw [head, tail] at failed
          cases failed
  · rintro ⟨before, x, after, rfl, answered, failed⟩
    induction before with
    | nil =>
      rw [List.nil_append, List.mapM_cons, failed]
      rfl
    | cons y before ih =>
      rw [List.forall_mem_cons] at answered
      obtain ⟨⟨z, head⟩, answered⟩ := answered
      rw [List.cons_append, List.mapM_cons, head, ih answered]
      rfl

end Rollup
