import Rollup.Decimal.Shortest

/-!
Writing a decimal numeral: always with a positional point, or with an exponent outside a middle
range.
-/

namespace Rollup.Decimal

def zeros (n : Nat) : List Char := List.replicate n '0'

/-- Digits, and a point only if the exponent is negative. At least one digit precedes it. -/
def positional (d : Decimal) : List Char :=
  let digits := Nat.toDigits 10 d.digits
  if 0 ≤ d.exponent then digits ++ zeros d.exponent.toNat
  else
    let places := (-d.exponent).toNat
    let padded := zeros (places + 1 - digits.length) ++ digits
    padded.take (padded.length - places) ++ '.' :: padded.drop (padded.length - places)

/-- One digit, a point if more follow, and the power of ten with a sign and two digits or more. -/
def scientific (d : Decimal) : List Char :=
  let digits := Nat.toDigits 10 d.digits
  let power := d.exponent + digits.length - 1
  let fraction := digits.drop 1
  let width := Nat.toDigits 10 power.natAbs
  digits.take 1 ++ (if fraction.isEmpty then [] else '.' :: fraction) ++
    'e' :: (if power < 0 then '-' else '+') :: zeros (2 - width.length) ++ width

/-- Positional while the point stands from three places before the digits to sixteen after their
start, with a fraction of at least one digit; else scientific. -/
def balanced (d : Decimal) : List Char :=
  let point := d.exponent + (Nat.toDigits 10 d.digits).length
  if -4 < point ∧ point ≤ 16 then
    if 0 ≤ d.exponent then d.positional ++ ".0".toList else d.positional
  else d.scientific

end Rollup.Decimal
