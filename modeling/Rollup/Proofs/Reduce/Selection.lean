import Rollup.Proofs.Series.Regrouped

/-!
Reducers that answer one of the samples present: the first, the last, a largest or a smallest one.
Main statement: a view of a view is the view under the product of the factors, also where groups are
short or miss all samples.
-/

namespace Rollup

namespace Statistic

variable {choose : Sample → Sample → Sample}

/-- A choice between two samples that does not depend on where several are parted. -/
structure IsSelection (choose : Sample → Sample → Sample) : Prop where
  one_of : ∀ x y, choose x y = x ∨ choose x y = y
  assoc : ∀ x y z, choose (choose x y) z = choose x (choose y z)

/-- The choice among the samples present, from left to right. -/
def select (choose : Sample → Sample → Sample) : List Sample → Sample :=
  ofPresent fun xs => xs.tail.foldl choose (xs.headD .missing)

/-- The choice between two samples of which any may be missing. -/
def chooseAny (choose : Sample → Sample → Sample) (x y : Sample) : Sample :=
  if x.isMissing then y else if y.isMissing then x else choose x y

theorem eq_missing {x : Sample} (missing : x.isMissing = true) : x = .missing := by
  cases x with
  | missing => rfl
  | infinite | finite => cases missing

theorem IsSelection.foldl_mem (selection : IsSelection choose) (x : Sample) (xs : List Sample) :
    xs.foldl choose x ∈ x :: xs := by
  induction xs generalizing x with
  | nil => simp
  | cons y ys ih =>
    rcases List.mem_cons.mp (ih (choose x y)) with chosen | later
    · rw [List.foldl_cons, chosen]
      rcases selection.one_of x y with same | same
      · rw [same]
        exact List.mem_cons_self
      · rw [same]
        exact List.mem_cons_of_mem _ List.mem_cons_self
    · exact List.mem_cons_of_mem _ (List.mem_cons_of_mem _ later)

theorem IsSelection.foldl_cons (selection : IsSelection choose) (x y : Sample)
    (ys : List Sample) : (y :: ys).foldl choose x = choose x (ys.foldl choose y) := by
  induction ys generalizing y with
  | nil => rfl
  | cons z zs ih => rw [List.foldl_cons, List.foldl_cons, selection.assoc, ← List.foldl_cons, ih,
      List.foldl_cons]

theorem chooseAny_missing (choose : Sample → Sample → Sample) (x : Sample) :
    chooseAny choose x .missing = x := by
  cases x <;> rfl

theorem chooseAny_present {x y : Sample} (first : x.isMissing = false)
    (second : y.isMissing = false) : chooseAny choose x y = choose x y := by
  simp [chooseAny, first, second]

theorem IsSelection.chooseAny_assoc (selection : IsSelection choose) (x y z : Sample) :
    chooseAny choose (chooseAny choose x y) z = chooseAny choose x (chooseAny choose y z) := by
  have present {x y : Sample} (first : x.isMissing = false) (second : y.isMissing = false) :
      (choose x y).isMissing = false := by
    rcases selection.one_of x y with same | same
    · rwa [same]
    · rwa [same]
  cases first : x.isMissing with
  | true => rw [eq_missing first]; rfl
  | false =>
    cases second : y.isMissing with
    | true => rw [eq_missing second, chooseAny_missing]; rfl
    | false =>
      cases third : z.isMissing with
      | true => rw [eq_missing third, chooseAny_missing, chooseAny_missing]
      | false =>
        rw [chooseAny_present first second, chooseAny_present second third,
          chooseAny_present (present first second) third,
          chooseAny_present first (present second third), selection.assoc]

/-- A sample goes before the choice among those after it. -/
theorem IsSelection.select_cons (selection : IsSelection choose) (x : Sample) (xs : List Sample) :
    select choose (x :: xs) = chooseAny choose x (select choose xs) := by
  simp only [select, ofPresent, chooseAny]
  cases first : x.isMissing with
  | true => simp [present, first]
  | false =>
    have kept : present (x :: xs) = x :: present xs := by simp [present, first]
    rw [kept]
    cases rest : present xs with
    | nil => simp [Sample.isMissing]
    | cons y ys =>
      have answered : (ys.foldl choose y).isMissing = false := by
        have among := selection.foldl_mem y ys
        rw [← rest] at among
        simpa using (List.mem_filter.mp among).2
      simp only [List.isEmpty_cons, List.tail_cons, List.headD_cons, answered, Bool.false_eq_true,
        if_false]
      exact selection.foldl_cons x y ys

theorem IsSelection.select_append (selection : IsSelection choose) (xs ys : List Sample) :
    select choose (xs ++ ys) = chooseAny choose (select choose xs) (select choose ys) := by
  induction xs with
  | nil => rfl
  | cons x xs ih =>
    rw [List.cons_append, selection.select_cons, ih, selection.select_cons,
      selection.chooseAny_assoc]

/-- Choosing among the choices of the parts is choosing among all. -/
theorem IsSelection.select_flatten (selection : IsSelection choose) (parts : List (List Sample)) :
    select choose parts.flatten = select choose (parts.map (select choose)) := by
  induction parts with
  | nil => rfl
  | cons part parts ih =>
    rw [List.flatten_cons, selection.select_append, ih, List.map_cons, selection.select_cons]

theorem select_singleton (x : Sample) : select choose [x] = x := by
  cases x with
  | missing | infinite | finite => rfl

theorem isSelection_first : IsSelection fun x _ => x := ⟨fun _ _ => .inl rfl, fun _ _ _ => rfl⟩

theorem isSelection_last : IsSelection fun _ y => y := ⟨fun _ _ => .inr rfl, fun _ _ _ => rfl⟩

theorem isSelection_max : IsSelection Sample.max where
  one_of x y := by
    rw [Sample.max]
    split
    · exact .inr rfl
    · exact .inl rfl
  assoc x y z := by
    simp only [Sample.max]
    grind

theorem isSelection_min : IsSelection Sample.min where
  one_of x y := by
    rw [Sample.min]
    split
    · exact .inr rfl
    · exact .inl rfl
  assoc x y z := by
    simp only [Sample.min]
    grind

theorem first_eq_select : first = select fun x _ => x := by
  have stays (x : Sample) (xs : List Sample) : xs.foldl (fun x _ => x) x = x := by
    induction xs with
    | nil => rfl
    | cons y ys ih => exact ih
  simp only [first, select, stays]

theorem last_eq_select : last = select fun _ y => y := by
  have ends (x : Sample) (xs : List Sample) : xs.foldl (fun _ y => y) x = xs.getLastD x := by
    induction xs generalizing x with
    | nil => rfl
    | cons y ys ih => rw [List.foldl_cons, ih, List.getLastD_cons]
  have same : (fun xs : List Sample => xs.getLastD .missing) =
      fun xs => xs.tail.foldl (fun _ y => y) (xs.headD .missing) := by
    funext xs
    cases xs with
    | nil => rfl
    | cons x xs => rw [List.getLastD_cons, ends]; rfl
  rw [last, select, same]

/-- The reducers under these names are selections. -/
theorem exists_selection {name : Text}
    (among : name ∈ (["first", "last", "max", "min"] : List Text)) :
    ∃ label choose, IsSelection choose ∧
      Registry.standard.find? name = some (.ofStatistic label (select choose)) := by
  have lower : ∀ name ∈ (["first", "last", "max", "min"] : List Text), Text.lower name = name := by
    decide +kernel
  have same := lower name among
  simp only [List.mem_cons, List.not_mem_nil, or_false] at among
  rcases among with rfl | rfl | rfl | rfl
  · refine ⟨"first", _, isSelection_first, ?_⟩
    rw [Registry.find?, same, ← first_eq_select]
    rfl
  · refine ⟨"last", _, isSelection_last, ?_⟩
    rw [Registry.find?, same, ← last_eq_select]
    rfl
  · refine ⟨"max", _, isSelection_max, ?_⟩
    rw [Registry.find?, same]
    rfl
  · refine ⟨"min", _, isSelection_min, ?_⟩
    rw [Registry.find?, same]
    rfl

end Statistic

namespace Series

variable {s : Series} {k l : Nat} {choose : Sample → Sample → Sample}

/-- A factor of one leaves the samples as a selection from groups of one does. -/
theorem viewUnder_of_selection {label : String} (some_sample : 1 ≤ k)
    (resolved : (s.resolve .standard).1 = .ok (.ofStatistic label (Statistic.select choose))) :
    s.viewUnder k = .ok ((groups k s.values).map (Statistic.select choose)) := by
  rcases Nat.eq_or_lt_of_le some_sample with rfl | several
  · have same : Statistic.select choose ∘ (fun x => [x]) = id := by
      funext x
      exact Statistic.select_singleton x
    rw [viewUnder_of_single (Nat.le_refl 1), groups_one, List.map_map, same, List.map_id]
  · exact viewUnder_of_statistic several resolved

/-- Two series that both take the first, the last, a largest or a smallest sample: if the samples of
the second are the view of the first, its view is that of the first under the product of the
factors. -/
theorem view_of_stages {name : Text}
    (among : name ∈ (["first", "last", "max", "min"] : List Text))
    (resolved : s.ResolvesTo name) (some_inner : 1 ≤ k) (some_outer : 1 ≤ l) :
    ∃ inner outer, s.viewUnder k = .ok inner ∧ s.viewUnder (k * l : Nat) = .ok outer ∧
      ∀ t : Series, t.ResolvesTo name → t.values = inner → t.viewUnder l = .ok outer := by
  obtain ⟨label, choose, selection, found⟩ := Statistic.exists_selection among
  have product : 1 ≤ k * l := Nat.mul_pos some_inner some_outer
  refine ⟨_, _, viewUnder_of_selection some_inner (resolved.resolve_eq found),
    viewUnder_of_selection product (resolved.resolve_eq found), ?_⟩
  intro t resolved fed
  have nested : Statistic.select choose ∘ List.flatten =
      Statistic.select choose ∘ List.map (Statistic.select choose) := by
    funext parts
    exact selection.select_flatten parts
  rw [viewUnder_of_selection some_outer (resolved.resolve_eq found), fed,
    groups_mul some_inner some_outer, groups_map, List.map_map, List.map_map, nested]

/-- Five samples by two and two: the last group is short on both levels, and the first one of two
misses both its samples. -/
theorem view_of_stages_short :
    ∃ s t : Series, s.ResolvesTo "max" ∧ t.ResolvesTo "max" ∧ s.consolidation = "Max" ∧
      s.values = [.missing, .missing, .ofNat 3, .ofNat 1, .ofNat 2] ∧
      s.viewUnder 2 = .ok t.values ∧ t.values = [.missing, .ofNat 3, .ofNat 2] ∧
      s.viewUnder 4 = .ok [.ofNat 3, .ofNat 2] ∧ t.viewUnder 2 = .ok [.ofNat 3, .ofNat 2] := by
  let s : Series :=
    { name := "a", start := 0, step := 60, stop := 300, consolidation := "Max",
      values := [.missing, .missing, .ofNat 3, .ofNat 1, .ofNat 2] }
  let t : Series :=
    { name := "b", start := 0, step := 120, stop := 360, consolidation := "max",
      values := [.missing, .ofNat 3, .ofNat 2] }
  have among : Text.ofString "max" ∈ (["first", "last", "max", "min"] : List Text) := by decide
  have lower : Text.lower "Max" = Text.lower "max" := by decide +kernel
  obtain ⟨label, choose, _, found⟩ := Statistic.exists_selection among
  have first : s.ResolvesTo "max" := resolvesTo_of_lower rfl rfl lower found
  have second : t.ResolvesTo "max" := resolvesTo_of_lower rfl rfl rfl found
  have inner : s.viewUnder (2 : Nat) = .ok t.values := by decide +kernel
  have whole : s.viewUnder (2 * 2 : Nat) = .ok [.ofNat 3, .ofNat 2] := by decide +kernel
  obtain ⟨fed, outer, shown, shown', staged⟩ :=
    view_of_stages (k := 2) (l := 2) among first (by decide) (by decide)
  rw [inner] at shown
  rw [whole] at shown'
  cases shown
  cases shown'
  exact ⟨s, t, first, second, rfl, rfl, inner, rfl, whole, staged t second rfl⟩

end Series

end Rollup
