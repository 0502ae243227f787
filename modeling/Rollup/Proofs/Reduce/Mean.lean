import Rollup.Reduce.Registry

/-!
The mean that counts missing samples as zero. Main statement: on groups of any length without an
infinite sample it is the mean of the group with zeros in the place of the missing samples, although
it fills the group and does not filter it. An infinite sample it replaces as well, by the largest
finite one, so that its answer can be finite where no sum over the group is.
-/

namespace Rollup

namespace Sample

def isInfinite : Sample → Bool
  | infinite _ => true
  | _ => false

/-- Only finite terms have a finite sum. -/
theorem isFinite_of_add {x y : Sample} (finite : (add x y).isFinite) : x.isFinite ∧ y.isFinite := by
  cases x with
  | missing => cases finite
  | infinite a =>
    cases y with
    | missing | finite => cases finite
    | infinite b =>
      by_cases same : a = b
      · simp [add, same, isFinite] at finite
      · simp [add, same, isFinite] at finite
  | finite x =>
    cases y with
    | missing | infinite => cases finite
    | finite y => exact ⟨rfl, rfl⟩

theorem isFinite_of_div {x y : Sample} (finite : (div x y).isFinite) : x.isFinite := by
  cases x with
  | missing => cases finite
  | infinite a => cases y <;> cases finite
  | finite x => rfl

end Sample

theorem SumTree.isFinite_of_total {tree : SumTree Sample} (finite : tree.total.isFinite) :
    ∀ x ∈ tree.terms, x.isFinite := by
  induction tree with
  | empty => simp [terms]
  | term x => simpa [terms, total] using finite
  | join left right first second =>
    obtain ⟨low, high⟩ := Sample.isFinite_of_add finite
    intro x member
    rcases List.mem_append.mp member with inside | inside
    · exact first low x inside
    · exact second high x inside

theorem Sample.isFinite_of_sum {xs : List Sample} (finite : (sum xs).isFinite) :
    ∀ x ∈ xs, x.isFinite := by
  intro x member
  apply SumTree.isFinite_of_total (Sample.isFinite_of_add finite).2
  exact (SumTree.terms_pairwise xs).mem_iff.mpr member

namespace Statistic

/-- Zero for a missing sample; every other one stays, infinite ones too. -/
def missingFilled : Sample → Sample
  | .missing => .zero
  | x => x

theorem isMissing_missingFilled (x : Sample) : (missingFilled x).isMissing = false := by
  cases x <;> rfl

theorem isMissing_zeroFilled (x : Sample) : (zeroFilled x).isMissing = false := by
  cases x <;> rfl

theorem missingFilled_of_finite {x : Sample} (finite : x.isFinite) : missingFilled x = x := by
  cases x with
  | finite x => rfl
  | missing | infinite => cases finite

theorem zeroFilled_eq {x : Sample} (bounded : x.isInfinite = false) :
    zeroFilled x = missingFilled x := by
  cases x with
  | infinite negative => cases bounded
  | missing | finite => rfl

/-- Nothing is left out of a group that was filled. -/
theorem mean_map {fill : Sample → Sample} (fills : ∀ x, (fill x).isMissing = false)
    (xs : List Sample) :
    mean (xs.map fill) = if xs.isEmpty then .missing else average (xs.map fill) := by
  have whole : present (xs.map fill) = xs.map fill := by
    apply List.filter_eq_self.mpr
    intro y member
    obtain ⟨x, _, rfl⟩ := List.mem_map.mp member
    simp [fills]
  rw [mean, ofPresent, whole, List.isEmpty_map]

theorem meanZero_eq_mean (xs : List Sample) : meanZero xs = mean (xs.map zeroFilled) :=
  (mean_map isMissing_zeroFilled xs).symm

theorem isFinite_of_average {xs : List Sample} (finite : (average xs).isFinite) :
    ∀ x ∈ xs, x.isFinite :=
  Sample.isFinite_of_sum (Sample.isFinite_of_div finite)

/-- An infinite sample keeps the mean from being finite, whatever the others are. -/
theorem bounded_of_mean {xs : List Sample} (finite : (mean (xs.map missingFilled)).isFinite) :
    ∀ x ∈ xs, x.isInfinite = false := by
  intro x member
  have some_sample : xs.isEmpty = false := by simpa using List.ne_nil_of_mem member
  rw [mean_map isMissing_missingFilled, some_sample] at finite
  have inside := isFinite_of_average finite (missingFilled x) (List.mem_map_of_mem member)
  cases x with
  | infinite negative => cases inside
  | missing | finite => rfl

/-- What the registry answers under the names of the two means, and how far they agree. -/
theorem meanZero_of_group (xs : List Sample) :
    (Registry.standard.find? "avg_zero").map (·.reduce xs) = some (.ok (meanZero xs)) ∧
    (Registry.standard.find? "avg").map (·.reduce xs) = some (.ok (mean xs)) ∧
    meanZero xs = mean (xs.map zeroFilled) ∧
    ((∀ x ∈ xs, x.isInfinite = false) → meanZero xs = mean (xs.map missingFilled)) ∧
    ((∀ x ∈ xs, x.isFinite) → meanZero xs = mean xs) ∧
    ((∃ x ∈ xs, x.isInfinite) → (meanZero xs).isFinite →
      meanZero xs ≠ mean (xs.map missingFilled)) := by
  have filled (bounded : ∀ x ∈ xs, x.isInfinite = false) :
      meanZero xs = mean (xs.map missingFilled) := by
    rw [meanZero_eq_mean, List.map_congr_left fun x member => zeroFilled_eq (bounded x member)]
  refine ⟨?_, ?_, meanZero_eq_mean xs, filled, ?_, ?_⟩
  · have name : Text.lower "avg_zero" = "avg_zero" := by decide +kernel
    rw [Registry.find?, name]
    rfl
  · have name : Text.lower "avg" = "avg" := by decide +kernel
    rw [Registry.find?, name]
    rfl
  · intro finite
    have bounded : ∀ x ∈ xs, x.isInfinite = false := by
      intro x member
      cases x with
      | infinite negative => cases finite _ member
      | missing | finite => rfl
    have stays := List.map_congr_left fun x member => missingFilled_of_finite (finite x member)
    rw [filled bounded, stays, List.map_id']
  · rintro ⟨x, member, unbounded⟩ finite same
    rw [same] at finite
    have bounded := bounded_of_mean finite x member
    rw [unbounded] at bounded
    cases bounded

/-- A group without an infinite sample, and one whose infinite sample is replaced. -/
theorem meanZero_of_group_mixed :
    ∃ xs ys : List Sample,
      xs = [.ofNat 1, .missing, .ofNat 5] ∧ ys = [.infinite true, .missing, .ofNat 5] ∧
      (∀ x ∈ xs, x.isInfinite = false) ∧ meanZero xs = mean [.ofNat 1, .zero, .ofNat 5] ∧
      meanZero xs = .ofNat 2 ∧
      (∃ y ∈ ys, y.isInfinite) ∧ (meanZero ys).isFinite ∧
      meanZero ys ≠ mean [.infinite true, .zero, .ofNat 5] := by
  let xs : List Sample := [.ofNat 1, .missing, .ofNat 5]
  let ys : List Sample := [.infinite true, .missing, .ofNat 5]
  have bounded : ∀ x ∈ xs, x.isInfinite = false := by decide +kernel
  have unbounded : ∃ y ∈ ys, y.isInfinite := ⟨.infinite true, List.mem_cons_self, rfl⟩
  have finite : (meanZero ys).isFinite := by decide +kernel
  have zeros : xs.map missingFilled = [.ofNat 1, .zero, .ofNat 5] ∧
      ys.map missingFilled = [.infinite true, .zero, .ofNat 5] := by
    decide +kernel
  have first := (meanZero_of_group xs).2.2.2.1 bounded
  have second := (meanZero_of_group ys).2.2.2.2.2 unbounded finite
  rw [zeros.1] at first
  rw [zeros.2] at second
  exact ⟨xs, ys, rfl, rfl, bounded, first, by decide +kernel, unbounded, finite, second⟩

/-- An infinite sample counts as the largest finite one, also in a group that misses none. -/
theorem meanZero_infinite :
    meanZero [.infinite false] = Sample.largest false ∧
      mean ([.infinite false].map missingFilled) = .infinite false ∧
      mean [.infinite false] = .infinite false := by
  decide +kernel

end Statistic

end Rollup
