import Mathlib.Algebra.BigOperators.Group.List.Basic
import Rollup.Proofs.Sample.Whole
import Rollup.Proofs.Series.Regrouped

/-!
Totals of integer samples. Main statement: the points of a view by sums, and of one by counts, add
up to what all samples add up to, whatever the size of the groups. A tree of additions is exact
since no partial sum exceeds the sum of the magnitudes of all terms.
-/

namespace Rollup

namespace Sample

/-- Each sample is an integer, or missing. -/
def AreIntegers (xs : List Sample) : Prop := ∀ x ∈ xs, x ≠ .missing → x.toInt?.isSome = true

/-- The sum of the integers among some samples. -/
def integerSum (xs : List Sample) : Int := (xs.filterMap toInt?).sum

/-- The sum of their magnitudes. -/
def magnitudeSum (xs : List Sample) : Nat := ((xs.filterMap toInt?).map Int.natAbs).sum

variable {xs ys : List Sample}

theorem integerSum_append (xs ys : List Sample) :
    integerSum (xs ++ ys) = integerSum xs + integerSum ys := by
  rw [integerSum, List.filterMap_append, List.sum_append]
  rfl

theorem magnitudeSum_append (xs ys : List Sample) :
    magnitudeSum (xs ++ ys) = magnitudeSum xs + magnitudeSum ys := by
  rw [magnitudeSum, List.filterMap_append, List.map_append, List.sum_append]
  rfl

theorem integerSum_flatten (parts : List (List Sample)) :
    integerSum parts.flatten = (parts.map integerSum).sum := by
  induction parts with
  | nil => rfl
  | cons part parts ih =>
    rw [List.flatten_cons, integerSum_append, ih, List.map_cons, List.sum_cons]

theorem magnitudeSum_le_of_mem {part : List Sample} {parts : List (List Sample)}
    (member : part ∈ parts) : magnitudeSum part ≤ magnitudeSum parts.flatten := by
  obtain ⟨before, after, rfl⟩ := List.append_of_mem member
  rw [List.flatten_append, List.flatten_cons, magnitudeSum_append, magnitudeSum_append]
  omega

theorem natAbs_integerSum_le (xs : List Sample) : (integerSum xs).natAbs ≤ magnitudeSum xs := by
  rw [integerSum, magnitudeSum]
  induction xs.filterMap toInt? with
  | nil => rfl
  | cons n ns ih =>
    rw [List.sum_cons, List.map_cons, List.sum_cons]
    omega

theorem filterMap_present (xs : List Sample) :
    (Statistic.present xs).filterMap toInt? = xs.filterMap toInt? := by
  have same : ∀ x : Sample, (if (!x.isMissing) = true then x.toInt? else none) = x.toInt? := by
    intro x
    cases x <;> rfl
  simp only [Statistic.present, List.filterMap_filter, same]

theorem integerSum_present (xs : List Sample) :
    integerSum (Statistic.present xs) = integerSum xs := by
  rw [integerSum, filterMap_present, integerSum]

theorem magnitudeSum_present (xs : List Sample) :
    magnitudeSum (Statistic.present xs) = magnitudeSum xs := by
  rw [magnitudeSum, filterMap_present, magnitudeSum]

theorem AreIntegers.present (integers : AreIntegers xs) :
    ∀ x ∈ Statistic.present xs, x.toInt?.isSome = true := by
  intro x member
  obtain ⟨member, some_sample⟩ := List.mem_filter.mp member
  apply integers x member
  rintro rfl
  cases some_sample

end Sample

open Sample

/-- Any order and nesting of the additions gives the exact sum. -/
theorem SumTree.toInt?_total {tree : SumTree Sample}
    (whole : ∀ x ∈ tree.terms, x.toInt?.isSome = true) (small : magnitudeSum tree.terms ≤ 2 ^ 53) :
    tree.total.toInt? = some (integerSum tree.terms) := by
  induction tree with
  | empty => exact toInt?_zero false
  | term x =>
    obtain ⟨n, is_n⟩ := Option.isSome_iff_exists.mp (whole x List.mem_cons_self)
    simp [total, terms, integerSum, is_n]
  | join left right first second =>
    rw [terms, magnitudeSum_append] at small
    have low := first (fun x member => whole x (List.mem_append_left _ member)) (by omega)
    have high := second (fun x member => whole x (List.mem_append_right _ member)) (by omega)
    have bounded := natAbs_integerSum_le (left.terms ++ right.terms)
    rw [integerSum_append, magnitudeSum_append] at bounded
    rw [terms, integerSum_append]
    exact toInt?_add low high (by omega)

theorem Sample.toInt?_sum {xs : List Sample} (whole : ∀ x ∈ xs, x.toInt?.isSome = true)
    (small : magnitudeSum xs ≤ 2 ^ 53) : (sum xs).toInt? = some (integerSum xs) := by
  have once := SumTree.terms_pairwise xs
  have same : integerSum (SumTree.pairwise xs).terms = integerSum xs :=
    (once.filterMap toInt?).sum_eq
  have magnitude : magnitudeSum (SumTree.pairwise xs).terms = magnitudeSum xs :=
    ((once.filterMap toInt?).map Int.natAbs).sum_eq
  have total := SumTree.toInt?_total (fun x member => whole x (once.mem_iff.mp member))
    (by rwa [magnitude])
  have bounded := natAbs_integerSum_le xs
  have start : zero.toInt? = some 0 := toInt?_zero false
  rw [same] at total
  rw [sum, toInt?_add start total (by omega), Int.zero_add]

namespace Statistic

variable {group : List Sample} {n : Int} {x : Sample}

/-- What stands for a group in a view: missing for a group without a sample, else an integer. -/
structure IsTotal (group : List Sample) (n : Int) (x : Sample) : Prop where
  missing_iff : x = .missing ↔ present group = []
  exact : present group ≠ [] → x.toInt? = some n

theorem isTotal_ofPresent {f : List Sample → Sample}
    (exact : present group ≠ [] → (f (present group)).toInt? = some n) :
    IsTotal group n (ofPresent f group) := by
  by_cases none : present group = []
  · have missing : ofPresent f group = .missing := by rw [ofPresent, none]; rfl
    exact ⟨by simp [missing, none], fun some_sample => absurd none some_sample⟩
  · have answered : ofPresent f group = f (present group) := by
      rw [ofPresent, if_neg (by simpa using none)]
    constructor
    · constructor
      · intro missing
        rw [← answered, missing] at exact
        cases exact none
      · intro empty
        exact absurd empty none
    · intro some_sample
      rw [answered, exact some_sample]

theorem isTotal_sum (integers : AreIntegers group) (small : magnitudeSum group ≤ 2 ^ 53) :
    IsTotal group (integerSum group) (sum group) := by
  apply isTotal_ofPresent
  intro _
  rw [toInt?_sum integers.present (by rwa [magnitudeSum_present]), integerSum_present]

theorem isTotal_count (short : group.length ≤ 2 ^ 53) :
    IsTotal group ((present group).length : Nat) (count group) := by
  apply isTotal_ofPresent
  intro _
  exact toInt?_ofNat ((List.length_filter_le _ _).trans short)

/-- A missing total adds nothing, as the group has none. -/
theorem IsTotal.integerSum_singleton (total : IsTotal group n x)
    (nothing : present group = [] → n = 0) : integerSum [x] = n := by
  by_cases none : present group = []
  · rw [total.missing_iff.mpr none, nothing none]
    rfl
  · simp [integerSum, total.exact none]

theorem integerSum_of_forall₂ {total : List Sample → Int} {parts : List (List Sample)}
    {view : List Sample} (nothing : ∀ part, present part = [] → total part = 0)
    (totals : List.Forall₂ (fun part x => IsTotal part (total part) x) parts view) :
    integerSum view = (parts.map total).sum := by
  induction totals with
  | nil => rfl
  | @cons part x parts view first _ ih =>
    rw [← List.singleton_append, integerSum_append, ih,
      first.integerSum_singleton (nothing part), List.map_cons, List.sum_cons]

theorem length_present_flatten (parts : List (List Sample)) :
    ((present parts.flatten).length : Int) =
      (parts.map fun part => ((present part).length : Int)).sum := by
  induction parts with
  | nil => rfl
  | cons part parts ih =>
    rw [List.map_cons, List.sum_cons, ← ih, List.flatten_cons, present, List.filter_append,
      List.length_append]
    rfl

end Statistic

theorem Registry.find?_sum : standard.find? "sum" = some (.ofStatistic "sum" Statistic.sum) := by
  have name : Text.lower "sum" = "sum" := by decide +kernel
  rw [find?, name]
  rfl

theorem Registry.find?_count :
    standard.find? "count" = some (.ofStatistic "count" Statistic.count) := by
  have name : Text.lower "count" = "count" := by decide +kernel
  rw [find?, name]
  rfl

namespace Series

theorem sublist_of_mem_groups {k : Nat} {group xs : List Sample} (member : group ∈ groups k xs) :
    group.Sublist xs := by
  have inside := List.sublist_flatten_of_mem member
  rwa [flatten_groups] at inside

theorem totals_of_statistic {s : Series} {k : Nat} {label : String} {f : List Sample → Sample}
    {total : List Sample → Int} (several : 2 ≤ k)
    (resolved : (s.resolve .standard).1 = .ok (.ofStatistic label f))
    (nothing : ∀ group, Statistic.present group = [] → total group = 0)
    (each : ∀ group ∈ groups k s.values, Statistic.IsTotal group (total group) (f group)) :
    ∃ view, s.viewUnder k = .ok view ∧
      List.Forall₂ (fun group x => Statistic.IsTotal group (total group) x)
        (groups k s.values) view ∧
      integerSum view = ((groups k s.values).map total).sum := by
  have totals : List.Forall₂ (fun group x => Statistic.IsTotal group (total group) x)
      (groups k s.values) ((groups k s.values).map f) := by
    rw [List.forall₂_map_right_iff, List.forall₂_same]
    exact each
  exact ⟨_, viewUnder_of_statistic several resolved, totals,
    Statistic.integerSum_of_forall₂ nothing totals⟩

/-- The points of a view by sums are exact and add up to the sum of all samples, and those of a view
by counts to the number of samples present, whatever the factor. -/
theorem totals_of_view (s : Series) (k : Nat) (several : 2 ≤ k) :
    (s.ResolvesTo "sum" → AreIntegers s.values → magnitudeSum s.values ≤ 2 ^ 53 →
      ∃ view, s.viewUnder k = .ok view ∧
        List.Forall₂ (fun group x => Statistic.IsTotal group (integerSum group) x)
          (groups k s.values) view ∧
        integerSum view = integerSum s.values) ∧
    (s.ResolvesTo "count" → s.values.length ≤ 2 ^ 53 →
      ∃ view, s.viewUnder k = .ok view ∧
        List.Forall₂
          (fun group x => Statistic.IsTotal group ((Statistic.present group).length : Nat) x)
          (groups k s.values) view ∧
        integerSum view = (Statistic.present s.values).length) := by
  have joined := flatten_groups k s.values
  constructor
  · intro resolved integers small
    rw [← joined, integerSum_flatten, joined]
    apply totals_of_statistic several (resolved.resolve_eq Registry.find?_sum)
    · intro group none
      rw [← integerSum_present, none]
      rfl
    · intro group member
      have part := magnitudeSum_le_of_mem member
      rw [joined] at part
      apply Statistic.isTotal_sum _ (part.trans small)
      intro x among
      exact integers x ((sublist_of_mem_groups member).mem among)
  · intro resolved short
    rw [← joined, Statistic.length_present_flatten, joined]
    apply totals_of_statistic several (resolved.resolve_eq Registry.find?_count)
    · intro group none
      rw [none]
      rfl
    · intro group member
      exact Statistic.isTotal_count ((sublist_of_mem_groups member).length_le.trans short)

/-- Three hundred samples of three before one that is missing, by two hundred: a long group and a
shorter one, both of them added in halves. -/
theorem totals_of_view_long :
    ∃ (s : Series) (view : List Sample), s.consolidation = "SUM" ∧
      s.values = List.replicate 300 (.ofNat 3) ++ [.missing] ∧ AreIntegers s.values ∧
      magnitudeSum s.values ≤ 2 ^ 53 ∧ s.viewUnder 200 = .ok view ∧ integerSum view = 900 := by
  obtain ⟨values, listed⟩ : ∃ values, values = List.replicate 300 (Sample.ofNat 3) ++ [.missing] :=
    ⟨_, rfl⟩
  let s : Series :=
    { name := "a", start := 0, step := 60, stop := 18060, consolidation := "SUM", values := values }
  have three : (Sample.ofNat 3).toInt? = some 3 := toInt?_ofNat (by decide)
  have none : [Sample.missing].filterMap toInt? = [] := rfl
  have shown : values.filterMap toInt? = List.replicate 300 3 := by
    rw [listed, List.filterMap_append, List.filterMap_replicate_of_some three, none,
      List.append_nil]
  have integers : AreIntegers values := by
    intro x member present
    rw [listed] at member
    rcases List.mem_append.mp member with among | last
    · rw [List.eq_of_mem_replicate among, three]
      rfl
    · exact absurd (List.mem_singleton.mp last) present
  have small : magnitudeSum values ≤ 2 ^ 53 := by
    rw [magnitudeSum, shown]
    decide +kernel
  have lower : Text.lower "SUM" = Text.lower "sum" := by decide +kernel
  have resolved : s.ResolvesTo "sum" := resolvesTo_of_lower rfl rfl lower Registry.find?_sum
  obtain ⟨view, answered, _, total⟩ :=
    (totals_of_view s 200 (by decide)).1 resolved integers small
  refine ⟨s, view, rfl, listed, integers, small, answered, ?_⟩
  rw [total, integerSum, shown]
  decide +kernel

end Series

end Rollup
