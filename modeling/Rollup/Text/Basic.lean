/-!
Text: sequences of code points. Halves of surrogate pairs are code points but no characters, and
text may hold them on their own. Also sets of code points, and cutting and trimming.
-/

namespace Rollup

inductive CodePoint where
  | scalar (c : Char)
  /-- Half of a surrogate pair: the first `0x400` come first in a pair, the others second. -/
  | half (index : Fin 0x800)
  deriving DecidableEq, Repr

abbrev Text := List CodePoint

namespace CodePoint

instance : Coe Char CodePoint := ⟨scalar⟩

def toNat : CodePoint → Nat
  | scalar c => c.toNat
  | half index => 0xd800 + index

def isScalar : CodePoint → Bool
  | scalar _ => true
  | half _ => false

def char? : CodePoint → Option Char
  | scalar c => some c
  | half _ => none

end CodePoint

namespace Text

def ofChars (s : List Char) : Text := s.map .scalar

def ofString (s : String) : Text := ofChars s.toList

instance : Coe String Text := ⟨ofString⟩

/-- Whether all code points are characters. -/
def isScalar (s : Text) : Bool := s.all CodePoint.isScalar

/-- The characters of a text, if it holds nothing else. -/
def chars? (s : Text) : Option (List Char) := s.mapM CodePoint.char?

def codes (s : Text) : List Nat := s.map CodePoint.toNat

/-- The first code point that differs decides; a text comes before those that go on after it. -/
instance : LT Text := ⟨fun s t => List.Lex (· < ·) s.codes t.codes⟩

instance : DecidableLT Text := fun s t => List.decidableLex (· < ·) s.codes t.codes

instance : LE Text := ⟨fun s t => ¬ t < s⟩

instance : DecidableLE Text := fun s t => inferInstanceAs (Decidable (¬ t < s))

/-- First and last code points of each range. -/
abbrev Ranges := List (Nat × Nat)

def Ranges.contains (ranges : Ranges) (code : Nat) : Bool :=
  ranges.any fun range => range.1 ≤ code && code ≤ range.2

/-- The spaces, line breaks and separators of Unicode. -/
def blanks : Ranges :=
  [(0x9, 0xd), (0x1c, 0x20), (0x85, 0x85), (0xa0, 0xa0), (0x1680, 0x1680), (0x2000, 0x200a),
   (0x2028, 0x2029), (0x202f, 0x202f), (0x205f, 0x205f), (0x3000, 0x3000)]

def isBlank (p : CodePoint) : Bool := blanks.contains p.toNat

def isQuote (p : CodePoint) : Bool := p == '\x27' || p == '\x22'

variable {α : Type}

/-- Drops members of a class from both ends. -/
def trim (drops : α → Bool) (s : List α) : List α :=
  ((s.dropWhile drops).reverse.dropWhile drops).reverse

/-- The parts between separators, one more than there are separators. -/
def splitOn [DecidableEq α] (separator : α) (s : List α) : List (List α) :=
  s.foldr
    (fun c parts =>
      if c = separator then [] :: parts
      else match parts with
        | [] => [[c]]
        | part :: others => (c :: part) :: others)
    [[]]

@[simp] theorem ofChars_append (s t : List Char) : ofChars (s ++ t) = ofChars s ++ ofChars t :=
  List.map_append

theorem ofChars_injective {s t : List Char} (same : ofChars s = ofChars t) : s = t :=
  List.map_inj_right (fun _ _ => CodePoint.scalar.inj) |>.mp same

theorem isScalar_ofChars (s : List Char) : (ofChars s).isScalar = true := by
  simp [isScalar, ofChars, CodePoint.isScalar]

theorem chars?_ofChars (s : List Char) : (ofChars s).chars? = some s := by
  induction s with
  | nil => rfl
  | cons c s ih =>
    rw [chars?] at ih ⊢
    simp only [ofChars, List.map_cons, List.mapM_cons] at ih ⊢
    rw [ih]
    rfl

theorem eq_ofChars_of_isScalar {s : Text} (scalar : s.isScalar = true) :
    ∃ chars, s = ofChars chars := by
  induction s with
  | nil => exact ⟨[], rfl⟩
  | cons p s ih =>
    rw [isScalar, List.all_cons, Bool.and_eq_true] at scalar
    obtain ⟨chars, rfl⟩ := ih scalar.2
    cases p with
    | scalar c => exact ⟨c :: chars, rfl⟩
    | half index => cases scalar.1

theorem chars?_eq_some_iff {s : Text} {chars : List Char} :
    s.chars? = some chars ↔ s = ofChars chars := by
  constructor
  · intro found
    induction s generalizing chars with
    | nil =>
      cases found
      rfl
    | cons p s ih =>
      rw [chars?, List.mapM_cons] at found
      cases p with
      | half index => cases found
      | scalar c =>
        cases rest : s.mapM CodePoint.char? with
        | none => simp [rest, CodePoint.char?] at found
        | some others =>
          simp only [rest, CodePoint.char?] at found
          cases found
          rw [ih rest]
          rfl
  · rintro rfl
    exact chars?_ofChars chars

end Text

end Rollup
