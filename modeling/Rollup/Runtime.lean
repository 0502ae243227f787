import Rollup.Time.Zone

/-!
What the programs find around them: how long a written integer may be, which zones there are, and
which equal texts are one object. The programs work in any surroundings that keep the laws stated
with them.
-/

namespace Rollup

/-- A limit on the digits of integers is no less than this. -/
def leastDigitLimit : Nat := 640

class Runtime where
  /-- The most digits of an integer that is written as text, if there is a limit. -/
  digitLimit : Option Nat
  least_le : ∀ limit, digitLimit = some limit → leastDigitLimit ≤ limit
  /-- The zone of a name, or why there is none. -/
  zone : Text → Except String Time.Zone
  zone_universal : zone "UTC" = .ok .universal
  /-- Equal texts are one object if their labels are equal. A text of a series in a batch has its
  label by the place of the series in the batch and the place of the text in the series. -/
  label : Nat → Nat → Nat

namespace Runtime

/-- The common limit of digits, no zone but universal time, and equal texts kept as one object. -/
@[reducible] def usual : Runtime where
  digitLimit := some 4300
  least_le := by
    rintro limit ⟨⟩
    decide
  zone name := if name = "UTC" then .ok .universal else .error "unknown"
  zone_universal := if_pos rfl
  label _ _ := 0

end Runtime

variable [Runtime]

/-- The limit that the digits of an integer exceed, if they do. -/
def digitExcess? (n : Int) : Option Nat :=
  Runtime.digitLimit.filter fun limit => 10 ^ limit ≤ n.natAbs

/-- Whether an integer can be written as text. -/
def isWritable (n : Int) : Bool := (digitExcess? n).isNone

/-- The digits of an integer, which are asked for wherever it may be put in a text. -/
def integerText (n : Int) : Except Fault (List Char) :=
  match digitExcess? n with
  | some limit => .error (.tooManyDigits limit)
  | none => .ok (toString n).toList

/-- Short integers can be written under any limit. -/
theorem isWritable_of_lt {n : Int} (short : n.natAbs < 10 ^ leastDigitLimit) :
    isWritable n = true := by
  rw [isWritable, digitExcess?]
  cases limited : Runtime.digitLimit with
  | none => rfl
  | some limit =>
    have wide : 10 ^ leastDigitLimit ≤ 10 ^ limit :=
      Nat.pow_le_pow_right (by decide) (Runtime.least_le limit limited)
    have within : ¬ 10 ^ limit ≤ n.natAbs := Nat.not_le.mpr (Nat.lt_of_lt_of_le short wide)
    simp [Option.filter, within]

/-- Without a limit every integer can be written. -/
theorem isWritable_of_unlimited (free : Runtime.digitLimit = none) (n : Int) :
    isWritable n = true := by
  rw [isWritable, digitExcess?, free]
  rfl

theorem digitExcess?_of_isWritable {n : Int} (writable : isWritable n = true) :
    digitExcess? n = none := by
  rwa [isWritable, Option.isNone_iff_eq_none] at writable

theorem integerText_eq_ok_iff {n : Int} {text : List Char} :
    integerText n = .ok text ↔ isWritable n = true ∧ text = (toString n).toList := by
  rw [integerText, isWritable]
  cases digitExcess? n <;> simp [eq_comm]

namespace Fault

/-- Checks a requirement on an integer that the fault's message names. The message is put together
before the requirement is looked at. -/
def requireOf (n : Int) (holds : Bool) (fault : Fault) : Except Fault Unit := do
  let _ ← integerText n
  require holds fault

theorem requireOf_eq_ok_iff {n : Int} {holds : Bool} {fault : Fault} {done : Unit} :
    requireOf n holds fault = .ok done ↔ isWritable n = true ∧ holds = true := by
  simp only [requireOf, bind_eq_ok_iff, integerText_eq_ok_iff, require_eq_ok_iff]
  constructor
  · rintro ⟨_, ⟨writable, _⟩, holds⟩
    exact ⟨writable, holds⟩
  · rintro ⟨writable, holds⟩
    exact ⟨_, ⟨writable, rfl⟩, holds⟩

/-- A requirement fails for want of digits before it fails for itself. -/
theorem requireOf_eq_error_iff {n : Int} {holds : Bool} {fault given : Fault} :
    requireOf n holds fault = .error given ↔
      (∃ limit, digitExcess? n = some limit ∧ given = .tooManyDigits limit) ∨
        isWritable n = true ∧ holds = false ∧ given = fault := by
  rw [requireOf, isWritable, integerText]
  cases digitExcess? n with
  | some limit => simp [bind, Except.bind, eq_comm]
  | none => cases holds <;> simp [bind, Except.bind, require, eq_comm]

end Fault

end Rollup
