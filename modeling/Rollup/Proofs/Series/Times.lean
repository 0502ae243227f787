import Rollup.Proofs.Series.Coherence
import Rollup.Proofs.Store.Soundness
import Rollup.Proofs.Time.Instants

/-!
The points of a view and their times. Main statement: a point has the time of the first sample of
its group, also where the word arithmetic of times wraps around; where the end of a series fits a
word, the times of its points are exact, ascend and lie within its bounds.
-/

namespace Rollup.Series

variable {s : Series} {view : List Sample}

/-- Samples to a point of the view, but for a last point of fewer. -/
def perPoint (s : Series) : Nat := max 1 s.grouping.toNat

theorem perPoint_pos (s : Series) : 0 < s.perPoint := by
  rw [perPoint]
  omega

theorem perPoint_eq (s : Series) : (s.perPoint : Int) = max 1 s.grouping := by
  rw [perPoint]
  omega

/-- The groups of samples, of which the last may be short. -/
def pointCount (s : Series) : Nat := (s.values.length + s.perPoint - 1) / s.perPoint

theorem lt_pointCount_iff {i : Nat} : i < s.pointCount ↔ s.perPoint * i < s.values.length := by
  have positive := s.perPoint_pos
  rw [pointCount, ← Nat.succ_le_iff, Nat.le_div_iff_mul_le positive, Nat.succ_mul, Nat.mul_comm]
  omega

theorem aggregatedStep_eq (s : Series) : s.aggregatedStep = s.step * s.perPoint := by
  rw [aggregatedStep, perPoint_eq]
  split
  · next single => rw [Int.max_eq_left single, Int.mul_one]
  · next several => rw [Int.max_eq_right (by omega)]

/-- A kept view is the one that a recomputation answers. -/
def Current (s : Series) : Prop := ∀ view, s.view = some view → s.aggregate.1 = .ok view

theorem Coherent.current (coherent : s.Coherent) : s.Current := by
  intro view kept
  rw [(coherent view kept).aggregate_eq]

theorem Current.aggregate_of_aggregated (current : s.Current) (read : s.aggregated.1 = .ok view) :
    s.aggregate.1 = .ok view := by
  cases kept : s.view with
  | some held =>
    rw [aggregated, kept] at read
    cases read
    exact current view kept
  | none => rwa [aggregated, kept] at read

/-- A view has one point for each group of samples. -/
theorem length_of_aggregate (answered : s.aggregate.1 = .ok view) :
    view.length = s.pointCount := by
  rw [pointCount, ← length_groups s.perPoint_pos]
  rcases s.aggregate_cases with
    ⟨single, outcome⟩ | ⟨_, unknown, _, outcome⟩ | ⟨grouped, reducer, _, answer⟩
  · rw [outcome] at answered
    cases answered
    have one : s.perPoint = 1 := by
      rw [perPoint]
      omega
    rw [one, length_groups Nat.one_pos]
    simp
  · rw [outcome] at answered
    cases answered
  · rcases answer with ⟨reason, _, outcome⟩ | ⟨found, reduced, outcome⟩
    · rw [outcome] at answered
      cases answered
    · rw [outcome] at answered
      cases answered
      have several : s.perPoint = s.grouping.toNat := by
        rw [perPoint]
        omega
      rw [several, (mapM_eq_ok_iff.mp reduced).length_eq]

theorem aggregatedTimestamps_fst (read : s.aggregated.1 = .ok view) :
    s.aggregatedTimestamps.1 = Time.instants s.start (s.step * s.perPoint) view.length := by
  have frame := s.aggregated_frame
  rcases outcome : s.aggregated with ⟨answer, after⟩
  rw [outcome] at read frame
  simp only at read frame
  rw [read] at outcome
  simp only [aggregatedTimestamps, outcome]
  rw [aggregatedStep_eq, frame]
  rfl

/-- The exact times of the points. -/
def pointTimes (s : Series) : List Int :=
  Time.spaced s.start (s.step * s.perPoint) s.pointCount

/-- What the times of the points of a view should be, next to those of all samples. -/
structure AreTimes (s : Series) (points samples : List Int) : Prop where
  points_length : points.length = s.pointCount
  samples_length : samples.length = s.values.length
  word : ∀ i < s.pointCount,
    points[i]? = some (Time.wordInstant s.start (s.step * s.perPoint) i)
  first : ∀ i < s.pointCount, samples[s.perPoint * i]? = points[i]?
  exact_iff : points = s.pointTimes ↔
    s.pointCount = 0 ∨
      Time.fitsWord (s.start + s.step * s.perPoint * (s.pointCount - 1 : Nat)) = true

/-- Exact times in order, from the start of a series to its end. -/
structure AreOrdered (s : Series) (points : List Int) : Prop where
  exact : points = s.pointTimes
  increasing : points.Pairwise (· < ·)
  bounded : ∀ t ∈ points, s.start ≤ t ∧ t < s.stop
  reaching : ∀ last ∈ points.getLast?, s.stop ≤ last + s.step * s.perPoint

/-- Words wrap alike whether one goes by samples or by groups of them. -/
theorem areTimes_wrap (first : Time.fitsWord s.start = true) :
    s.AreTimes (s.pointTimes.map Time.wrap)
      ((Time.spaced s.start s.step s.values.length).map Time.wrap) where
  points_length := by rw [List.length_map, pointTimes, Time.length_spaced]
  samples_length := by rw [List.length_map, Time.length_spaced]
  word i inside := by
    rw [List.getElem?_map, pointTimes, Time.getElem?_spaced inside, Time.wordInstant_eq]
    rfl
  first i inside := by
    rw [List.getElem?_map, List.getElem?_map, pointTimes, Time.getElem?_spaced inside,
      Time.getElem?_spaced (lt_pointCount_iff.mp inside), Int.natCast_mul, Int.mul_assoc]
  exact_iff := Time.map_wrap_spaced_iff first

theorem apart_pos (sound : s.IsSound) : 0 < s.step * s.perPoint :=
  Int.mul_pos sound.step (by exact_mod_cast s.perPoint_pos)

/-- No group of samples begins at the end or later. -/
theorem pointTimes_bounds (sound : s.IsSound) :
    ∀ t ∈ s.pointTimes, s.start ≤ t ∧ t < s.stop := by
  intro t member
  obtain ⟨i, inside, rfl⟩ := Time.mem_spaced.mp member
  have begins : s.perPoint * i < s.values.length := lt_pointCount_iff.mp inside
  have forward : 0 ≤ s.step * s.perPoint * i :=
    Int.mul_nonneg (Int.le_of_lt (apart_pos sound)) (by omega)
  have before : s.step * s.perPoint * i < s.step * s.values.length := by
    rw [Int.mul_assoc]
    exact Int.mul_lt_mul_of_pos_left (by exact_mod_cast begins) sound.step
  rw [sound.stop]
  omega

/-- The last group takes all samples that are left, and these are no more than any group has. -/
theorem stop_le_last (sound : s.IsSound) :
    ∀ last ∈ s.pointTimes.getLast?, s.stop ≤ last + s.step * s.perPoint := by
  intro last final
  rw [Option.mem_def, List.getLast?_eq_getElem?, pointTimes, Time.length_spaced] at final
  have some_point : 0 < s.pointCount := by
    by_contra none
    rw [List.getElem?_eq_none (by rw [Time.length_spaced]; omega)] at final
    cases final
  rw [Time.getElem?_spaced (by omega)] at final
  cases final
  have taken : ¬ s.perPoint * s.pointCount < s.values.length := fun left =>
    absurd (lt_pointCount_iff.mpr left) (by omega)
  have all : (s.values.length : Int) ≤ (s.perPoint * s.pointCount : Nat) := by omega
  calc
    s.stop = s.start + s.step * s.values.length := sound.stop
    _ ≤ s.start + s.step * (s.perPoint * s.pointCount : Nat) :=
        Int.add_le_add_left (Int.mul_le_mul_of_nonneg_left all (Int.le_of_lt sound.step)) _
    _ = s.start + s.step * s.perPoint * (s.pointCount - 1 : Nat) + s.step * s.perPoint := by
        rw [Int.natCast_sub some_point]
        push_cast
        ring

/-- Where the end of a series fits a word, so do the times of its points, which lie before it. -/
theorem areOrdered_wrap (sound : s.IsSound) (first : Time.fitsWord s.start = true)
    (end_fits : Time.fitsWord s.stop = true) : s.AreOrdered (s.pointTimes.map Time.wrap) := by
  have exact : s.pointTimes.map Time.wrap = s.pointTimes := by
    rw [Time.map_wrap_eq_self_iff]
    intro t member
    obtain ⟨after, before⟩ := pointTimes_bounds sound t member
    rw [Time.fitsWord_iff] at first end_fits ⊢
    omega
  rw [exact]
  exact ⟨rfl, Time.spaced_increasing (apart_pos sound), pointTimes_bounds sound, stop_le_last sound⟩

/-- The times of a view whenever the view is answered. -/
theorem times_of_check (checked : s.check true = .ok ()) (current : s.Current)
    (first : Time.fitsWord s.start = true)
    (apart : Time.fitsWord (s.step * s.perPoint) = true) (read : s.aggregated.1 = .ok view) :
    ∃ points samples, s.aggregatedTimestamps.1 = .ok points ∧ s.timestamps = .ok samples ∧
      s.AreTimes points samples ∧ (Time.fitsWord s.stop = true → s.AreOrdered points) := by
  have sound := check_eq_ok_iff.mp checked
  have count := length_of_aggregate (current.aggregate_of_aggregated read)
  have shorter : Time.fitsWord s.step = true := by
    have one : s.step * 1 ≤ s.step * s.perPoint :=
      Int.mul_le_mul_of_nonneg_left (by exact_mod_cast s.perPoint_pos) (Int.le_of_lt sound.step)
    have positive := sound.step
    rw [Time.fitsWord_iff] at apart ⊢
    omega
  refine ⟨s.pointTimes.map Time.wrap, (Time.spaced s.start s.step s.values.length).map Time.wrap,
    ?_, ?_, areTimes_wrap first, areOrdered_wrap sound first⟩
  · rw [aggregatedTimestamps_fst read, count]
    exact Time.instants_eq_ok_iff.mpr ⟨first, apart, rfl⟩
  · exact Time.instants_eq_ok_iff.mpr ⟨first, shorter, rfl⟩

/-- From the lowest word on, in strides of a quarter of all words: the product of the last stride
fits none, but its time does. -/
theorem times_of_check_wide :
    ∃ s : Series, ∃ view : List Sample,
      s.check true = .ok () ∧ s.Current ∧ s.grouping = 2 ∧ s.view = some view ∧
      Time.fitsWord s.start = true ∧ Time.fitsWord (s.step * s.perPoint) = true ∧
      Time.fitsWord s.stop = true ∧ s.aggregated.1 = .ok view ∧
      Time.fitsWord (s.step * s.perPoint * 3) = false ∧
      s.aggregatedTimestamps.1 = .ok [-2 ^ 63, -2 ^ 62, 0, 2 ^ 62] ∧ s.stop = 2 ^ 62 + 2 ^ 61 := by
  let s : Series :=
    { name := "a", start := -2 ^ 63, step := 2 ^ 61, stop := 2 ^ 62 + 2 ^ 61, grouping := 2,
      values := [.ofNat 1, .missing, .ofNat 3, .ofNat 3, .ofNat 5, .ofNat 5, .ofNat 7],
      view := some [.ofNat 1, .ofNat 3, .ofNat 5, .ofNat 7] }
  have checked : s.check true = .ok () := by decide +kernel
  have current : s.Current := by
    intro view kept
    cases kept
    decide +kernel
  have first : Time.fitsWord s.start = true := by decide
  have apart : Time.fitsWord (s.step * s.perPoint) = true := by decide
  have last : Time.fitsWord s.stop = true := by decide
  have read : s.aggregated.1 = .ok [.ofNat 1, .ofNat 3, .ofNat 5, .ofNat 7] := rfl
  have times : s.pointTimes = [-2 ^ 63, -2 ^ 62, 0, 2 ^ 62] := by decide +kernel
  obtain ⟨points, samples, answered, _, _, ordered⟩ :=
    times_of_check checked current first apart read
  rw [(ordered last).exact, times] at answered
  exact ⟨s, _, checked, current, rfl, rfl, first, apart, last, read, by decide, answered, rfl⟩

end Rollup.Series
