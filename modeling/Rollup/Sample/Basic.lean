import Rollup.Sample.Rounding

/-!
Samples: binary floating-point numbers with 53 significant bits, the two infinities, and one
value that marks a missing sample. Each number has one form, so equality of samples is equality
of their 64-bit words, the sign of zero included.
-/

namespace Rollup

/-- A finite sample counts units of `2 ^ -1074`: it is `± significand * 2 ^ exponent` of them.
The significand is as large as the exponent admits. -/
structure Finite where
  negative : Bool
  significand : Nat
  exponent : Nat
  significand_lt : significand < 2 ^ 53
  exponent_le : exponent ≤ 2045
  normal : exponent = 0 ∨ 2 ^ 52 ≤ significand
  deriving DecidableEq

namespace Finite

def zero (negative : Bool) : Finite := ⟨negative, 0, 0, by decide, by decide, .inl rfl⟩

/-- The distance from zero, in units of `2 ^ -1074`. -/
def magnitude (x : Finite) : Nat := x.significand * 2 ^ x.exponent

/-- The value, in units of `2 ^ -1074`. -/
def units (x : Finite) : Int := if x.negative then -(x.magnitude : Int) else x.magnitude

/-- Whether the value is zero, of either sign. -/
def isZero (x : Finite) : Bool := x.significand == 0

end Finite

inductive Sample where
  | missing
  | infinite (negative : Bool)
  | finite (x : Finite)
  deriving DecidableEq

namespace Sample

instance : Inhabited Sample := ⟨missing⟩

/-- Plus zero, the value of a sum of nothing. -/
def zero : Sample := finite (.zero false)

def isMissing : Sample → Bool
  | missing => true
  | _ => false

def isFinite : Sample → Bool
  | finite _ => true
  | _ => false

/-- The units of `2 ^ -1074` in one. -/
def one : Nat := 2 ^ 1074

/-- The sample nearest to `num / den` units, ties to even; infinite beyond the largest number. -/
def ofRatio (negative : Bool) (num den : Nat) : Sample :=
  let b := Binary.nearest 53 num den
  if fits : b.exponent ≤ 2045 then
    finite ⟨negative, b.significand, b.exponent, Binary.nearest_significand_lt (by decide), fits,
      Binary.nearest_normal (by decide)⟩
  else infinite negative

/-- The sample nearest to a whole number of units. -/
def ofUnits (units : Int) : Sample := ofRatio (units < 0) units.natAbs 1

/-- The sample nearest to a count. -/
def ofNat (n : Nat) : Sample := ofRatio false (n * one) 1

/-- The sample nearest to `± digits * 10 ^ exponent`. -/
def ofDecimal (negative : Bool) (digits : Nat) (exponent : Int) : Sample :=
  if 0 ≤ exponent then ofRatio negative (digits * 10 ^ exponent.toNat * one) 1
  else ofRatio negative (digits * one) (10 ^ (-exponent).toNat)

/-- The largest finite sample, of the given sign. -/
def largest (negative : Bool) : Sample :=
  finite ⟨negative, 2 ^ 53 - 1, 2045, by decide, by decide, .inr (by decide)⟩

def negate : Sample → Sample
  | missing => missing
  | infinite negative => infinite (!negative)
  | finite x => finite { x with negative := !x.negative }

/-- The order of the samples that are not missing: equal for the two zeros, the infinities at the
ends. -/
def key : Sample → Int
  | missing => 0
  | infinite negative => if negative then -(2 ^ 2098) else 2 ^ 2098
  | finite x => x.units

/-- The 64-bit word: sign, exponent and fraction. All missing samples are one word. -/
def bits : Sample → Nat
  | missing => 0x7ff8000000000000
  | infinite negative => signBit negative + 2047 * 2 ^ 52
  | finite x => signBit x.negative + x.exponent * 2 ^ 52 + x.significand
where
  signBit (negative : Bool) : Nat := if negative then 2 ^ 63 else 0

/-- The 32-bit word of the nearest number with 24 significant bits, ties to even; infinite beyond
the largest. Their units are `2 ^ -149`. -/
def singleBits : Sample → Nat
  | missing => 0x7fc00000
  | infinite negative => sign negative + 255 * 2 ^ 23
  | finite x =>
    let b := Binary.nearest 24 x.magnitude (2 ^ 925)
    sign x.negative +
      (if b.exponent ≤ 253 then b.exponent * 2 ^ 23 + b.significand else 255 * 2 ^ 23)
where
  sign (negative : Bool) : Nat := if negative then 2 ^ 31 else 0

end Sample

end Rollup
