import Mathlib.Data.List.Perm.Basic
import Mathlib.Logic.Relation
import Rollup.Proofs.Reduce.Selection
import Rollup.Proofs.Sample.Order
import Rollup.Proofs.Sorting

/-!
Statistics that go by the order of the samples. Main statement: the median, the largest and the
smallest sample, their distance and the count depend neither on the order of a group nor on its
missing samples, and the median of an odd number of samples is one of them, in the middle.
-/

namespace Rollup.Statistic

variable {xs ys : List Sample}

/-- A change of a group that keeps the samples present: another order, or one missing sample more or
less. -/
inductive Rearranges : List Sample → List Sample → Prop
  | permute {xs ys : List Sample} : xs.Perm ys → Rearranges xs ys
  | insert (front back : List Sample) : Rearranges (front ++ back) (front ++ .missing :: back)
  | delete (front back : List Sample) : Rearranges (front ++ .missing :: back) (front ++ back)

abbrev Rearranged : List Sample → List Sample → Prop := Relation.ReflTransGen Rearranges

theorem present_missing (front back : List Sample) :
    present (front ++ .missing :: back) = present (front ++ back) := by
  simp [present, Sample.isMissing]

theorem Rearranges.present_perm (change : Rearranges xs ys) : (present xs).Perm (present ys) := by
  cases change with
  | permute perm => exact perm.filter _
  | insert front back => rw [present_missing]
  | delete front back => rw [present_missing]

/-- Groups are rearranged into those with the same samples present, each as often. -/
theorem rearranged_iff : Rearranged xs ys ↔ (present xs).Perm (present ys) := by
  constructor
  · intro changes
    induction changes with
    | refl => exact .refl _
    | tail _ change ih => exact ih.trans change.present_perm
  · -- all missing samples are taken out of the one group and put into the other
    have bare (front zs : List Sample) : Rearranged (front ++ zs) (front ++ present zs) ∧
        Rearranged (front ++ present zs) (front ++ zs) := by
      induction zs generalizing front with
      | nil => exact ⟨.refl, .refl⟩
      | cons z zs ih =>
        cases missing : z.isMissing with
        | true =>
          obtain ⟨out, into⟩ := ih front
          rw [eq_missing missing]
          exact ⟨.head (.delete front zs) out, into.tail (.insert front zs)⟩
        | false =>
          have kept : present (z :: zs) = z :: present zs := by simp [present, missing]
          have further := ih (front ++ [z])
          rw [kept]
          simpa using further
    intro perm
    exact ((bare [] xs).1.tail (.permute perm)).trans (bare [] ys).2

/-- A group holds zeros of both signs. -/
def MixesZeros (xs : List Sample) : Prop :=
  .finite (.zero false) ∈ xs ∧ .finite (.zero true) ∈ xs

instance (xs : List Sample) : Decidable (MixesZeros xs) := inferInstanceAs (Decidable (_ ∧ _))

/-- The order tells the samples apart. -/
def IsTold (xs : List Sample) : Prop := ∀ x ∈ xs, ∀ y ∈ xs, x.key = y.key → x = y

theorem isTold_present (unmixed : ¬ MixesZeros xs) : IsTold (present xs) := by
  intro x first y second same
  obtain ⟨inside, shown⟩ := List.mem_filter.mp first
  obtain ⟨inside', shown'⟩ := List.mem_filter.mp second
  rcases Sample.eq_of_key (by simpa using shown) (by simpa using shown') same with
    equal | ⟨negative, rfl, rfl⟩
  · exact equal
  · cases negative with
    | false => exact absurd ⟨inside, inside'⟩ unmixed
    | true => exact absurd ⟨inside', inside⟩ unmixed

theorem sorted_perm (xs : List Sample) : (sorted xs).Perm xs := List.mergeSort_perm xs _

theorem sorted_congr (told : IsTold xs) (perm : xs.Perm ys) : sorted ys = sorted xs :=
  mergeSort_key_congr Sample.key told perm

theorem middle_congr (told : IsTold xs) (perm : xs.Perm ys) : middle ys = middle xs := by
  rw [middle, middle, sorted_congr told perm, perm.length_eq]

section Extreme

variable {choose : Sample → Sample → Sample} {value : Sample → Int}

/-- What is chosen has the greatest value, if each choice between two has. -/
theorem le_foldl_of_above (above : ∀ x y, value x ≤ value (choose x y) ∧
    value y ≤ value (choose x y)) (x : Sample) (xs : List Sample) :
    ∀ y ∈ x :: xs, value y ≤ value (xs.foldl choose x) := by
  induction xs generalizing x with
  | nil => simp
  | cons z zs ih =>
    obtain ⟨first, second⟩ := above x z
    have best := ih (choose x z)
    have onward := best _ List.mem_cons_self
    intro y member
    rw [List.foldl_cons]
    rcases List.mem_cons.mp member with rfl | member
    · exact Int.le_trans first onward
    · rcases List.mem_cons.mp member with rfl | later
      · exact Int.le_trans second onward
      · exact best y (List.mem_cons_of_mem _ later)

/-- Only one sample can have the greatest value if the values tell the samples apart. -/
theorem IsSelection.foldl_congr (selection : IsSelection choose)
    (above : ∀ x y, value x ≤ value (choose x y) ∧ value y ≤ value (choose x y))
    (told : ∀ x ∈ xs, ∀ y ∈ xs, value x = value y → x = y) (perm : xs.Perm ys) :
    ys.tail.foldl choose (ys.headD .missing) = xs.tail.foldl choose (xs.headD .missing) := by
  cases xs with
  | nil => rw [perm.symm.eq_nil]
  | cons x xs =>
    cases ys with
    | nil => cases perm.eq_nil
    | cons y ys =>
      have chosen := selection.foldl_mem x xs
      have chosen' := perm.mem_iff.mpr (selection.foldl_mem y ys)
      apply told _ chosen' _ chosen
      apply Int.le_antisymm
      · exact le_foldl_of_above above x xs _ chosen'
      · exact le_foldl_of_above above y ys _ (perm.mem_iff.mp chosen)

end Extreme

theorem maximum_congr (told : IsTold xs) (perm : xs.Perm ys) : maximum ys = maximum xs := by
  have above (x y : Sample) : x.key ≤ (Sample.max x y).key ∧ y.key ≤ (Sample.max x y).key := by
    rw [Sample.max]
    split <;> omega
  exact isSelection_max.foldl_congr above told perm

theorem minimum_congr (told : IsTold xs) (perm : xs.Perm ys) : minimum ys = minimum xs := by
  have above (x y : Sample) :
      -x.key ≤ -(Sample.min x y).key ∧ -y.key ≤ -(Sample.min x y).key := by
    rw [Sample.min]
    split <;> omega
  have told' : ∀ x ∈ xs, ∀ y ∈ xs, -x.key = -y.key → x = y :=
    fun x first y second same => told x first y second (Int.neg_inj.mp same)
  exact isSelection_min.foldl_congr above told' perm

theorem ofPresent_congr {f : List Sample → Sample} (perm : (present xs).Perm (present ys))
    (same : f (present ys) = f (present xs)) : ofPresent f ys = ofPresent f xs := by
  rw [ofPresent, ofPresent, perm.isEmpty_eq, same]

theorem ofPresent_of_none {f : List Sample → Sample} (none : ∀ x ∈ xs, x = .missing) :
    ofPresent f xs = .missing := by
  have empty : present xs = [] := by
    apply List.filter_eq_nil_iff.mpr
    intro x member
    rw [none x member]
    decide
  rw [ofPresent, empty]
  rfl

/-- In the middle of some samples: one of them by its value, not below half of them and not above
half of them. -/
structure IsMedian (xs : List Sample) (m : Sample) : Prop where
  shown : m.isMissing = false
  among : ∃ x ∈ xs, m.key = x.key
  below : xs.length ≤ 2 * xs.countP fun x => x.key ≤ m.key
  above : xs.length ≤ 2 * xs.countP fun x => m.key ≤ x.key

theorem middle_of_odd (odd : xs.length % 2 = 1) :
    ∃ front x back, sorted xs = front ++ x :: back ∧ front.length = back.length ∧
      middle xs = [x] := by
  have length : (sorted xs).length = xs.length := (sorted_perm xs).length_eq
  have inside : (xs.length - 1) / 2 < (sorted xs).length := by omega
  refine ⟨(sorted xs).take ((xs.length - 1) / 2), (sorted xs)[(xs.length - 1) / 2],
    (sorted xs).drop ((xs.length - 1) / 2 + 1), ?_, ?_, ?_⟩
  · rw [← List.drop_eq_getElem_cons inside, List.take_append_drop]
  · rw [List.length_take, List.length_drop]
    omega
  · rw [middle, if_neg (by omega), List.drop_eq_getElem_cons inside]
    rfl

theorem average_singleton (x : Sample) : average [x] = Sample.add .zero x := by
  have total : (SumTree.pairwise [x]).total = x := by
    rw [SumTree.pairwise]
    rfl
  rw [average, Sample.sum, total, List.length_singleton, Sample.div_one]

theorem length_le_countP {holds : Sample → Bool} {part whole : List Sample}
    (within : part.Sublist whole) (all : ∀ x ∈ part, holds x = true) :
    part.length ≤ whole.countP holds := by
  rw [← List.countP_eq_length.mpr all]
  exact within.countP_le

/-- In a sorted list the samples up to the middle one are not above it, and those from it on are not
below it. -/
theorem isMedian_of_odd (odd : (present xs).length % 2 = 1) :
    IsMedian (present xs) (median xs) := by
  obtain ⟨front, x, back, split, halves, middle_eq⟩ := middle_of_odd odd
  have perm := sorted_perm (present xs)
  have order : (sorted (present xs)).Pairwise fun x y => x.key ≤ y.key :=
    pairwise_mergeSort_key Sample.key (present xs)
  rw [split] at perm order
  obtain ⟨_, from_middle, before⟩ := List.pairwise_append.mp order
  have after := (List.pairwise_cons.mp from_middle).1
  have member : x ∈ present xs := perm.mem_iff.mp (by simp)
  have mean : median xs = Sample.add .zero x := by
    have some_sample : (present xs).isEmpty = false := by
      rw [List.isEmpty_eq_false_iff]
      exact List.ne_nil_of_mem member
    rw [median, ofPresent, some_sample, if_neg Bool.false_ne_true, middle_eq, average_singleton]
  obtain ⟨shown, same⟩ := Sample.zero_add (x := x) (by simpa using (List.mem_filter.mp member).2)
  have length : (present xs).length = front.length + 1 + back.length := by
    rw [← perm.length_eq, List.length_append, List.length_cons]
    omega
  have lower : ∀ y ∈ front ++ [x], decide (y.key ≤ x.key) = true := by
    intro y inside
    rcases List.mem_append.mp inside with earlier | middle
    · exact decide_eq_true (before y earlier x (by simp))
    · rw [List.mem_singleton.mp middle]
      exact decide_eq_true (Int.le_refl _)
  have upper : ∀ y ∈ x :: back, decide (x.key ≤ y.key) = true := by
    intro y inside
    rcases List.mem_cons.mp inside with rfl | later
    · exact decide_eq_true (Int.le_refl _)
    · exact decide_eq_true (after y later)
  have start : (front ++ [x]).Sublist (front ++ x :: back) := by simp
  have few := length_le_countP start lower
  have many := length_le_countP (List.sublist_append_right front (x :: back)) upper
  rw [List.length_append, List.length_singleton] at few
  rw [List.length_cons] at many
  rw [mean]
  refine ⟨shown, ⟨x, member, same⟩, ?_, ?_⟩
  · rw [same, ← perm.countP_eq]
    omega
  · rw [same, ← perm.countP_eq]
    omega

/-- The median, the largest and the smallest sample, their distance and the count of a group with at
most one kind of zeros stay the same however the group is permuted and missing samples are put in or
taken out; they are missing if all samples are. The median of an odd number of samples is in the
middle of them. -/
theorem statistic_of_rearranged (unmixed : ¬ MixesZeros xs) (rearranged : Rearranged xs ys) :
    (∀ f ∈ [median, max, min, range, count],
      f ys = f xs ∧ ((∀ x ∈ xs, x = .missing) → f xs = .missing)) ∧
    ((present xs).length % 2 = 1 → IsMedian (present xs) (median xs)) := by
  have perm := rearranged_iff.mp rearranged
  have told := isTold_present unmixed
  refine ⟨?_, isMedian_of_odd⟩
  intro f member
  simp only [List.mem_cons, List.not_mem_nil, or_false] at member
  rcases member with rfl | rfl | rfl | rfl | rfl
  · exact ⟨ofPresent_congr perm (by rw [middle_congr told perm]), ofPresent_of_none⟩
  · exact ⟨ofPresent_congr perm (maximum_congr told perm), ofPresent_of_none⟩
  · exact ⟨ofPresent_congr perm (minimum_congr told perm), ofPresent_of_none⟩
  · have same : Sample.sub (maximum (present ys)) (minimum (present ys)) =
        Sample.sub (maximum (present xs)) (minimum (present xs)) := by
      rw [maximum_congr told perm, minimum_congr told perm]
    exact ⟨ofPresent_congr perm same, ofPresent_of_none⟩
  · exact ⟨ofPresent_congr perm (by rw [perm.length_eq]), ofPresent_of_none⟩

/-- Both infinities and minus zero, whose median is plus zero. -/
theorem statistic_of_rearranged_infinite :
    ∃ xs ys : List Sample,
      xs = [.infinite true, .missing, .finite (.zero true), .infinite false] ∧
      ys = [.infinite false, .infinite true, .missing, .missing, .finite (.zero true)] ∧
      ¬ MixesZeros xs ∧ Rearranged xs ys ∧ (present xs).length % 2 = 1 ∧
      max ys = max xs ∧ max ys = .infinite false ∧ range ys = range xs ∧ median ys = .zero ∧
      IsMedian (present xs) .zero ∧
      ((∀ x ∈ [Sample.missing], x = .missing) → median [.missing] = .missing) := by
  let xs : List Sample := [.infinite true, .missing, .finite (.zero true), .infinite false]
  let ys : List Sample :=
    [.infinite false, .infinite true, .missing, .missing, .finite (.zero true)]
  have unmixed : ¬ MixesZeros xs := by decide
  have rearranged : Rearranged xs ys := rearranged_iff.mpr (by decide)
  have odd : (present xs).length % 2 = 1 := by decide
  have none : ¬ MixesZeros [.missing] := by decide
  have order : sorted (present xs) = [.infinite true, .finite (.zero true), .infinite false] :=
    List.mergeSort_of_pairwise (by decide +kernel)
  have middle_one : median xs = .zero := by
    have alone : middle (present xs) = [.finite (.zero true)] := by
      rw [middle, order]
      decide
    have some_sample : (present xs).isEmpty = false := rfl
    rw [median, ofPresent, some_sample, if_neg Bool.false_ne_true, alone, average_singleton]
    rfl
  have greatest : max xs = .infinite false := by decide +kernel
  obtain ⟨each, middles⟩ := statistic_of_rearranged unmixed rearranged
  obtain ⟨alone, _⟩ := statistic_of_rearranged none .refl
  have halves := middles odd
  rw [middle_one] at halves
  refine ⟨xs, ys, rfl, rfl, unmixed, rearranged, odd, (each max (by simp)).1, ?_,
    (each range (by simp)).1, ?_, halves, (alone median (by simp)).2⟩
  · rw [(each max (by simp)).1, greatest]
  · rw [(each median (by simp)).1, middle_one]

end Rollup.Statistic
