import Rollup.Operation
import Rollup.Proofs.Groups
import Rollup.Proofs.Time.Reading

/-!
Instants that wrap around at the ends of a word, and when they are the exact ones. Main statement:
labels without a missing time are those of the exact instants.
-/

namespace Rollup.Time

theorem fitsWord_iff {t : Int} : fitsWord t = true ↔ -(2 ^ 63) ≤ t ∧ t < 2 ^ 63 := by
  simp [fitsWord]

theorem fitsWord_wrap (t : Int) : fitsWord (wrap t) = true := by
  have positive : 0 < 2 ^ 64 := by decide
  have low : -(((2 ^ 64 : Nat) : Int) / 2) ≤ wrap t := Int.le_bmod positive
  have high : wrap t < (((2 ^ 64 : Nat) : Int) + 1) / 2 := Int.bmod_lt positive
  rw [fitsWord_iff]
  omega

theorem wrap_eq_self_iff {t : Int} : wrap t = t ↔ fitsWord t = true := by
  constructor
  · intro exact
    rw [← exact]
    exact fitsWord_wrap t
  · intro fits
    obtain ⟨low, high⟩ := fitsWord_iff.mp fits
    rw [wrap, Int.bmod_eq_of_le] <;> omega

theorem map_wrap_eq_self_iff {times : List Int} :
    times.map wrap = times ↔ ∀ t ∈ times, fitsWord t = true := by
  induction times with
  | nil => simp
  | cons t times ih => simp [ih, wrap_eq_self_iff]

/-- What wrapping takes away. -/
theorem exists_wrap_add (t : Int) : ∃ turns : Int, wrap t + (2 ^ 64 : Nat) * turns = t :=
  ⟨t.bdiv (2 ^ 64), Int.bmod_add_bdiv t (2 ^ 64)⟩

variable {start step count : Int} {n : Nat}

/-- The exact instants. -/
def spaced (start step : Int) (n : Nat) : List Int :=
  (List.range n).map fun (i : Nat) => start + step * i

theorem length_spaced (start step : Int) (n : Nat) : (spaced start step n).length = n := by
  simp [spaced]

theorem getElem?_spaced {i : Nat} (inside : i < n) :
    (spaced start step n)[i]? = some (start + step * i) := by
  simp [spaced, List.getElem?_range inside]

theorem prefix_spaced {m : Nat} (fewer : m ≤ n) : spaced start step m <+: spaced start step n := by
  have first : List.range m = (List.range n).take m := by
    rw [List.take_range, Nat.min_eq_left fewer]
  rw [spaced, spaced, first]
  exact (List.take_prefix m _).map _

theorem mem_spaced {t : Int} : t ∈ spaced start step n ↔ ∃ i < n, t = start + step * i := by
  simp [spaced, eq_comm]

theorem instants_eq_ok_iff {times : List Int} :
    instants start step n = .ok times ↔
      fitsWord start = true ∧ fitsWord step = true ∧ times = (spaced start step n).map wrap := by
  by_cases fit : (fitsWord start && fitsWord step) = true
  · rw [Bool.and_eq_true] at fit
    simp [instants, spaced, fit, eq_comm, Function.comp_def]
  · simp only [instants, fit]
    simp only [Bool.and_eq_true, not_and] at fit
    simp +contextual [fit]

/-- An instant by word arithmetic, in which the product wraps before the sum does. -/
def wordInstant (start step : Int) (i : Nat) : Int := wrap (start + wrap (step * i))

theorem wordInstant_eq (start step : Int) (i : Nat) :
    wordInstant start step i = wrap (start + step * i) := by
  simp [wordInstant, wrap]

theorem spaced_increasing (apart : 0 < step) : (spaced start step n).Pairwise (· < ·) := by
  rw [spaced, List.pairwise_map]
  apply List.pairwise_lt_range.imp
  intro i j before
  have later : step * i < step * j := Int.mul_lt_mul_of_pos_left (by omega) apart
  omega

/-- Between two instants that fit, all do, so the last one decides. -/
theorem map_wrap_spaced_iff (first : fitsWord start = true) :
    (spaced start step n).map wrap = spaced start step n ↔
      n = 0 ∨ fitsWord (start + step * (n - 1 : Nat)) = true := by
  rw [map_wrap_eq_self_iff]
  constructor
  · intro all
    rcases n.eq_zero_or_pos with none | some
    · exact .inl none
    · exact .inr (all _ (mem_spaced.mpr ⟨n - 1, by omega, rfl⟩))
  · intro last t member
    obtain ⟨i, inside, rfl⟩ := mem_spaced.mp member
    rcases last with none | last
    · omega
    · rw [fitsWord_iff] at first last ⊢
      have before : (i : Int) ≤ (n - 1 : Nat) := by omega
      rcases Int.le_total 0 step with up | down
      · have low : 0 ≤ step * i := Int.mul_nonneg up (by omega)
        have high : step * i ≤ step * (n - 1 : Nat) := Int.mul_le_mul_of_nonneg_left before up
        omega
      · have high : step * i ≤ 0 := Int.mul_nonpos_of_nonpos_of_nonneg down (by omega)
        have low : step * (n - 1 : Nat) ≤ step * i := Int.mul_le_mul_of_nonpos_left down before
        omega

/-- One step takes an instant in reach less than a turn away, so it lands in reach only if it did
not wrap. -/
theorem wrap_add_of_inReach {t : Int} (near : Zone.inReach t = true) (apart : fitsWord step = true)
    (lands : Zone.inReach (wrap (t + step)) = true) : wrap (t + step) = t + step := by
  obtain ⟨turns, unwrapped⟩ := exists_wrap_add (t + step)
  rw [fitsWord_iff] at apart
  rw [Zone.inReach, Zone.reach, decide_eq_true_eq] at near lands
  have none : turns = 0 := by omega
  rw [none] at unwrapped
  omega

theorem wrap_of_all_inReach (first : fitsWord start = true) (apart : fitsWord step = true)
    (near : ∀ i < n, Zone.inReach (wrap (start + step * (i : Nat))) = true) :
    ∀ i < n, wrap (start + step * (i : Nat)) = start + step * i := by
  intro i inside
  induction i with
  | zero => simpa using wrap_eq_self_iff.mpr first
  | succ i ih =>
    have exact := ih (by omega)
    have here := near i (by omega)
    have next := near (i + 1) inside
    have after : start + step * (i + 1 : Nat) = start + step * i + step := by
      rw [Int.natCast_add, Int.mul_add]
      omega
    rw [exact] at here
    rw [after] at next ⊢
    exact wrap_add_of_inReach here apart next

/-- A count that rounds up to `2 ^ 63`, the lowest word, has no labels; any other has its own. -/
theorem labelCount_eq (counted : 0 ≤ count) (answered : labelCount count = .ok n) :
    (n : Int) = if count < 2 ^ 63 - 2 ^ 9 then count else 0 := by
  simp only [labelCount] at answered
  split at answered
  · cases answered
  · split at answered
    · next past =>
      cases answered
      rw [if_neg (by omega)]
      rfl
    · next few =>
      split at answered
      · cases answered
      · cases answered
        rw [if_pos (by omega)]
        omega

theorem isAt_of_localTime {zone : Zone} {t : Int} {d : DateTime}
    (shown : zone.localTime t = .ok d) : d.IsAt (t + zone.offset t) := by
  simp only [Zone.localTime, Fault.bind_eq_ok_iff] at shown
  obtain ⟨_, _, _, _, _, _, rest⟩ := shown
  cases rest
  exact DateTime.isAt_ofSeconds _

/-- What local clocks show at an instant, as text. -/
def IsLabel (zone : Zone) (t : Int) (text : List Char) : Prop :=
  ∃ d, zone.localTime t = .ok d ∧ d.IsAt (t + zone.offset t) ∧ text = d.text

theorem isLabel_of_label {zone : Zone} {t : Int} {shown : Option (List Char)}
    (labelled : label zone t = .ok shown) (present : shown ≠ none) :
    t ≠ missingTime ∧ ∃ text, shown = some text ∧ IsLabel zone t text := by
  simp only [label] at labelled
  split at labelled
  · cases labelled
    contradiction
  · next timed =>
    refine ⟨timed, ?_⟩
    cases clock : zone.localTime t with
    | error fault =>
      rw [clock] at labelled
      cases labelled
    | ok d =>
      rw [clock] at labelled
      cases labelled
      exact ⟨d.text, rfl, d, clock, isAt_of_localTime clock, rfl⟩

/-- Labels without a missing time are those of the exact instants, and as many as asked for unless
the count rounds up to the lowest word. -/
theorem exact_of_labels [Runtime] {name : Text} {shown : List (Option (List Char))}
    (counted : 0 ≤ count) (made : labels start step count name = .ok shown)
    (present : none ∉ shown) :
    (shown.length : Int) = (if count < 2 ^ 63 - 2 ^ 9 then count else 0) ∧
      (shown ≠ [] → ∃ zone, Runtime.zone name = .ok zone ∧
        List.Forall₂ (fun t label => ∃ text, label = some text ∧ IsLabel zone t text)
          (spaced start step shown.length) shown) := by
  simp only [labels] at made
  split at made
  · next none_asked =>
    cases made
    simp [none_asked]
  · simp only [Fault.bind_eq_ok_iff, Fault.require_eq_ok_iff, List.all_eq_true, Bool.or_eq_true,
      decide_eq_true_eq] at made
    obtain ⟨n, answered, times, wrapped, _, inside, zone, found, labelled⟩ := made
    have known : Runtime.zone name = .ok zone := by
      cases answer : Runtime.zone name with
      | error reason =>
        rw [answer] at found
        cases found
      | ok other =>
        rw [answer] at found
        cases found
        rfl
    obtain ⟨first, apart, rfl⟩ := instants_eq_ok_iff.mp wrapped
    have labelled := mapM_eq_ok_iff.mp labelled
    have length : shown.length = n := by
      rw [← labelled.length_eq, List.length_map, length_spaced]
    have some_shown : ∀ label ∈ shown, label ≠ none := by
      rintro label member rfl
      exact present member
    have both := ((List.forall₂_and_left shown _).mpr ⟨some_shown, labelled.flip⟩).flip
    obtain ⟨timed, shows⟩ := (List.forall₂_and_left _ _).mp
      (both.imp fun t label ⟨some_label, made⟩ => isLabel_of_label made some_label)
    have near : ∀ i < n, Zone.inReach (wrap (start + step * (i : Nat))) = true := by
      intro i among
      have member : wrap (start + step * i) ∈ (spaced start step n).map wrap :=
        List.mem_map_of_mem (mem_spaced.mpr ⟨i, among, rfl⟩)
      exact (inside _ member).resolve_left (timed _ member)
    have exact : (spaced start step n).map wrap = spaced start step n := by
      simpa [spaced] using wrap_of_all_inReach first apart near
    rw [exact] at shows
    rw [length]
    exact ⟨labelCount_eq counted answered, fun _ => ⟨zone, known, shows⟩⟩

/-- From one end of the calendar's range to the other in one step. -/
theorem exact_of_labels_ends :
    ∃ shown : List (Option (List Char)), 0 ≤ (2 : Int) ∧
      labels (-9223372036854) 18446744073708 2 "UTC" = .ok shown ∧ none ∉ shown ∧
      shown.length = 2 ∧ ∃ zone, Runtime.zone "UTC" = .ok zone ∧
        List.Forall₂ (fun t label => ∃ text, label = some text ∧ IsLabel zone t text)
          [-9223372036854, 9223372036854] shown := by
  have made : labels (-9223372036854) 18446744073708 2 "UTC" =
      .ok [some (DateTime.ofSeconds (-9223372036854)).text,
        some (DateTime.ofSeconds 9223372036854).text] := by
    simp only [labels, Runtime.zone_universal]
    rfl
  have present : none ∉ [some (DateTime.ofSeconds (-9223372036854)).text,
      some (DateTime.ofSeconds 9223372036854).text] := by simp
  have shows := (exact_of_labels (by decide) made present).2 (by simp)
  exact ⟨_, by decide, made, present, rfl, shows⟩

/-- The largest word rounds up, so there are no labels for it, and no fault either. -/
theorem labels_none_of_largest :
    ∃ (count : Int) (shown : List (Option (List Char))), 0 ≤ count ∧
      labels 0 1 count "UTC" = .ok shown ∧ none ∉ shown ∧ (shown.length : Int) ≠ count := by
  refine ⟨2 ^ 63 - 1, [], by decide, ?_, by simp, by decide⟩
  simp only [labels, Runtime.zone_universal]
  rfl

end Rollup.Time
