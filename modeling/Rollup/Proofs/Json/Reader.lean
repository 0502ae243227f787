import Mathlib.Data.List.Basic
import Rollup.Format.Json
import Rollup.Proofs.Decimal.Numeral
import Rollup.Proofs.Text.Reading

/-!
A reader of JSON documents: blanks between the parts, escapes and 16-bit units in strings, and
nothing after the value. Main statement: a quoted text is read as the text, but for halves of a pair
that meet in it, which are read as the character that the pair stands for.
-/

namespace Rollup.Json

/-- What a text may stand for. -/
inductive Value where
  | null
  | flag (b : Bool)
  | number (n : Numeral)
  | text (s : Text)
  | array (items : List Value)
  | object (entries : List (Text × Value))

def isBlank (c : Char) : Bool := c == ' ' || c == '\t' || c == '\n' || c == '\r'

def skipBlanks (s : List Char) : List Char := s.dropWhile isBlank

/-- The 16-bit units of a code point. -/
def units : CodePoint → List Nat
  | .scalar c =>
    if c.toNat < 0x10000 then [c.toNat]
    else [0xd800 + (c.toNat - 0x10000) / 0x400, 0xdc00 + (c.toNat - 0x10000) % 0x400]
  | .half index => [(CodePoint.half index).toNat]

def isHigh (unit : Nat) : Bool := 0xd800 ≤ unit && unit < 0xdc00

def isLow (unit : Nat) : Bool := 0xdc00 ≤ unit && unit < 0xe000

/-- The text of 16-bit units. Two that make a pair are one character, wherever they come from. -/
def ofUnits : List Nat → Text
  | [] => []
  | [unit] => [Text.ofCode unit]
  | unit :: next :: rest =>
    if isHigh unit && isLow next then
      .scalar (Char.ofNat (0x10000 + (unit - 0xd800) * 0x400 + (next - 0xdc00))) :: ofUnits rest
    else Text.ofCode unit :: ofUnits (next :: rest)

/-- What is read for a text. -/
def joined (s : Text) : Text := ofUnits (s.flatMap units)

/-- No half of a pair stands directly before one that completes the pair. -/
def Unpaired (s : Text) : Prop :=
  s.IsChain fun p next => ¬ (isHigh p.toNat = true ∧ isLow next.toNat = true)

/-- The unit that a short escape stands for. -/
def shortEscape (c : Char) : Option Nat :=
  if c = '\x22' ∨ c = '\\' ∨ c = '/' then some c.toNat
  else if c = 'b' then some 0x08
  else if c = 'f' then some 0x0c
  else if c = 'n' then some 0x0a
  else if c = 'r' then some 0x0d
  else if c = 't' then some 0x09
  else none

def hexUnit (a b c d : Char) : Option Nat := do
  return (((← Text.hexValue a) * 16 + (← Text.hexValue b)) * 16 + (← Text.hexValue c)) * 16 +
    (← Text.hexValue d)

/-- Units before the ones that were read. -/
def withUnits (first : List Nat) (later : Option (List Nat × List Char)) :
    Option (List Nat × List Char) :=
  later.map fun (others, rest) => (first ++ others, rest)

/-- The units of a string up to its closing quote, and what follows that. -/
def readUnits : List Char → Option (List Nat × List Char)
  | [] => none
  | c :: s =>
    if c = '\x22' then some ([], s)
    else if c = '\\' then
      match s with
      | 'u' :: a :: b :: c :: d :: s => (hexUnit a b c d).bind fun n => withUnits [n] (readUnits s)
      | e :: s => (shortEscape e).bind fun n => withUnits [n] (readUnits s)
      | [] => none
    else if c.toNat < 0x20 then none
    else withUnits (units (.scalar c)) (readUnits s)

/-- A string after its opening quote. -/
def readText (s : List Char) : Option (Text × List Char) :=
  (readUnits s).map fun (found, s) => (ofUnits found, s)

section Sequence

variable {α : Type} (item : List Char → Option (α × List Char)) (close : Char)

/-- Up to `count` items with commas between them, and the closing bracket. -/
def readSequence : Nat → List Char → Option (List α × List Char)
  | 0, _ => none
  | count + 1, s => do
    let (first, s) ← item s
    match skipBlanks s with
    | [] => none
    | c :: s =>
      if c = ',' then do
        let (others, s) ← readSequence count s
        return (first :: others, s)
      else if c = close then some ([first], s)
      else none

/-- Items after their opening bracket. -/
def readItems (s : List Char) : Option (List α × List Char) :=
  match skipBlanks s with
  | [] => none
  | c :: rest => if c = close then some ([], rest) else readSequence item close s.length s

end Sequence

def readEntry (read : List Char → Option (Value × List Char)) (s : List Char) :
    Option ((Text × Value) × List Char) :=
  match skipBlanks s with
  | '\x22' :: s => do
    let (key, s) ← readText s
    match skipBlanks s with
    | ':' :: s => do
      let (v, s) ← read s
      return ((key, v), s)
    | _ => none
  | _ => none

def readWord (word : List Char) (v : Value) (s : List Char) : Option (Value × List Char) :=
  if word.isPrefixOf s then some (v, s.drop word.length) else none

/-- A value of limited depth, and what follows it. -/
def readValue : Nat → List Char → Option (Value × List Char)
  | 0, _ => none
  | depth + 1, s =>
    match skipBlanks s with
    | [] => none
    | c :: rest =>
      if c = '\x22' then (readText rest).map fun (t, rest) => (.text t, rest)
      else if c = '[' then
        (readItems (readValue depth) ']' rest).map fun (items, rest) => (.array items, rest)
      else if c = '\x7b' then
        (readItems (readEntry (readValue depth)) '\x7d' rest).map
          fun (entries, rest) => (.object entries, rest)
      else if c = 'n' then readWord "ull".toList .null rest
      else if c = 't' then readWord "rue".toList (.flag true) rest
      else if c = 'f' then readWord "alse".toList (.flag false) rest
      else (Numeral.read (c :: rest)).map fun (n, rest) => (.number n, rest)

/-- The value that a whole text stands for. -/
def read (text : List Char) : Option Value :=
  match readValue text.length text with
  | some (v, rest) => if skipBlanks rest = [] then some v else none
  | none => none

theorem hexUnit_hex {n : Nat} (small : n < 0x10000) :
    ∃ a b c d, Text.hex 4 n = [a, b, c, d] ∧ hexUnit a b c d = some n := by
  refine ⟨_, _, _, _, rfl, ?_⟩
  simp only [hexUnit, Text.hexValue_hexDigit, Option.bind_eq_bind, Option.bind_some,
    Option.pure_def, Option.some.injEq]
  omega

theorem readUnits_quote (rest : List Char) : readUnits ('\x22' :: rest) = some ([], rest) := by
  rw [readUnits.eq_def]
  simp only [if_true]

theorem readUnits_plain {c : Char} (quote : c ≠ '\x22') (back : c ≠ '\\') (shown : 0x20 ≤ c.toNat)
    (rest : List Char) :
    readUnits (c :: rest) = withUnits (units (.scalar c)) (readUnits rest) := by
  rw [readUnits.eq_def]
  simp only [if_neg quote, if_neg back, if_neg (show ¬ c.toNat < 0x20 by omega)]

theorem readUnits_short {e : Char} {unit : Nat} (value : shortEscape e = some unit)
    (rest : List Char) : readUnits ('\\' :: e :: rest) = withUnits [unit] (readUnits rest) := by
  have other : e ≠ 'u' := by
    rintro rfl
    exact absurd value (by simp [shortEscape])
  rw [readUnits.eq_def]
  simp [other, value]

theorem readUnits_unit16 {n : Nat} (small : n < 0x10000) (rest : List Char) :
    readUnits (unit16 n ++ rest) = withUnits [n] (readUnits rest) := by
  obtain ⟨a, b, c, d, digits, value⟩ := hexUnit_hex small
  rw [unit16, digits, readUnits.eq_def]
  simp [value]

theorem withUnits_append (first second : List Nat) (later : Option (List Nat × List Char)) :
    withUnits first (withUnits second later) = withUnits (first ++ second) later := by
  cases later with
  | none => rfl
  | some later => simp [withUnits, List.append_assoc]

/-- An escape is read as the units of the character it was written for. -/
theorem readUnits_escapeChar (c : Char) (rest : List Char) :
    readUnits (escapeChar c ++ rest) = withUnits (units (.scalar c)) (readUnits rest) := by
  have short (e : Char) (value : shortEscape e = some c.toNat) (small : c.toNat < 0x10000) :
      readUnits (['\\', e] ++ rest) = withUnits (units (.scalar c)) (readUnits rest) := by
    rw [units, if_pos small]
    exact readUnits_short value rest
  by_cases quote : c = '\x22'
  · subst quote
    exact short '\x22' (by decide) (by decide)
  by_cases back : c = '\\'
  · subst back
    exact short '\\' (by decide) (by decide)
  by_cases feed : c = '\n'
  · subst feed
    exact short 'n' (by decide) (by decide)
  by_cases carriage : c = '\r'
  · subst carriage
    exact short 'r' (by decide) (by decide)
  by_cases tab : c = '\t'
  · subst tab
    exact short 't' (by decide) (by decide)
  by_cases backspace : c = '\x08'
  · subst backspace
    exact short 'b' (by decide) (by decide)
  by_cases form : c = '\x0c'
  · subst form
    exact short 'f' (by decide) (by decide)
  by_cases printable : 0x20 ≤ c.toNat ∧ c.toNat < 0x7f
  · simp only [escapeChar, quote, back, feed, carriage, tab, backspace, form, printable,
      decide_false, Bool.or_self, Bool.false_eq_true, if_false, and_self, if_true]
    exact readUnits_plain quote back printable.1 rest
  simp only [escapeChar, quote, back, feed, carriage, tab, backspace, form, printable,
    decide_false, Bool.or_self, Bool.false_eq_true, if_false]
  rcases lt_or_ge c.toNat 0x10000 with small | large
  · rw [if_pos small, readUnits_unit16 small, units, if_pos small]
  · have bound := Text.toNat_lt c
    rw [if_neg (by omega), List.append_assoc, readUnits_unit16 (by omega),
      readUnits_unit16 (by omega), withUnits_append, units, if_neg (by omega)]
    rfl

theorem readUnits_escapePoint (p : CodePoint) (rest : List Char) :
    readUnits (escapePoint p ++ rest) = withUnits (units p) (readUnits rest) := by
  cases p with
  | scalar c => exact readUnits_escapeChar c rest
  | half index =>
    have small : (CodePoint.half index).toNat < 0x10000 := by
      have bound := index.isLt
      simp only [CodePoint.toNat]
      omega
    exact readUnits_unit16 small rest

theorem readUnits_escaped (s : Text) (rest : List Char) :
    readUnits (s.flatMap escapePoint ++ '\x22' :: rest) = some (s.flatMap units, rest) := by
  induction s with
  | nil => exact readUnits_quote rest
  | cons p s ih =>
    rw [List.flatMap_cons, List.append_assoc, readUnits_escapePoint, ih]
    rfl

theorem readText_escaped (s : Text) (rest : List Char) :
    readText (s.flatMap escapePoint ++ '\x22' :: rest) = some (joined s, rest) := by
  rw [readText, readUnits_escaped]
  rfl

/-- A unit that makes no pair with the next one is read on its own. -/
theorem ofUnits_alone {unit : Nat} {rest : List Nat}
    (alone : ∀ next ∈ rest.head?, ¬ (isHigh unit = true ∧ isLow next = true)) :
    ofUnits (unit :: rest) = Text.ofCode unit :: ofUnits rest := by
  cases rest with
  | nil => rfl
  | cons next rest =>
    have unpaired : ¬ (isHigh unit && isLow next) = true := by simpa using alone next rfl
    rw [ofUnits, if_neg unpaired]

theorem ofUnits_pair {high low : Nat} (first : isHigh high = true) (second : isLow low = true)
    (rest : List Nat) :
    ofUnits (high :: low :: rest) =
      .scalar (Char.ofNat (0x10000 + (high - 0xd800) * 0x400 + (low - 0xdc00))) ::
        ofUnits rest := by
  rw [ofUnits, first, second]
  rfl

theorem not_isHigh_char (c : Char) : ¬ isHigh c.toNat = true := by
  have outside := Text.toNat_outside c
  simp only [isHigh, Bool.and_eq_true, decide_eq_true_eq]
  omega

theorem ofUnits_scalar (c : Char) (rest : List Nat) :
    ofUnits (units (.scalar c) ++ rest) = .scalar c :: ofUnits rest := by
  rcases lt_or_ge c.toNat 0x10000 with small | large
  · rw [units, if_pos small, List.singleton_append,
      ofUnits_alone (fun _ _ both => not_isHigh_char c both.1)]
    exact congrArg (· :: ofUnits rest) (Text.ofCode_toNat c)
  · have bound := Text.toNat_lt c
    have first : isHigh (0xd800 + (c.toNat - 0x10000) / 0x400) = true := by
      simp only [isHigh, Bool.and_eq_true, decide_eq_true_eq]
      omega
    have second : isLow (0xdc00 + (c.toNat - 0x10000) % 0x400) = true := by
      simp only [isLow, Bool.and_eq_true, decide_eq_true_eq]
      omega
    have whole : 0x10000 + (0xd800 + (c.toNat - 0x10000) / 0x400 - 0xd800) * 0x400 +
        (0xdc00 + (c.toNat - 0x10000) % 0x400 - 0xdc00) = c.toNat := by omega
    rw [units, if_neg (by omega)]
    simp only [List.cons_append, List.nil_append]
    rw [ofUnits_pair first second, whole, Char.ofNat_toNat]

/-- A second half can only come from itself. -/
theorem isLow_of_head {p : CodePoint} {rest : List Nat} {unit : Nat}
    (first : unit ∈ (units p ++ rest).head?) (low : isLow unit = true) :
    isLow p.toNat = true := by
  cases p with
  | half index =>
    cases first
    exact low
  | scalar c =>
    rw [units] at first
    split at first
    · cases first
      exact low
    · cases first
      have bound := Text.toNat_lt c
      simp only [isLow, Bool.and_eq_true, decide_eq_true_eq] at low
      omega

theorem joined_of_unpaired {s : Text} (unpaired : Unpaired s) : joined s = s := by
  induction s with
  | nil => rfl
  | cons p s ih =>
    have rest : joined s = s := ih (List.isChain_of_isChain_cons unpaired)
    rw [joined] at rest ⊢
    rw [List.flatMap_cons]
    cases p with
    | scalar c => rw [ofUnits_scalar, rest]
    | half index =>
      have alone : ∀ next ∈ (s.flatMap units).head?,
          ¬ (isHigh (CodePoint.half index).toNat = true ∧ isLow next = true) := by
        rintro next first ⟨high, low⟩
        cases s with
        | nil => cases first
        | cons q s => exact (List.isChain_cons_cons.mp unpaired).1 ⟨high, isLow_of_head first low⟩
      rw [units, List.singleton_append, ofUnits_alone alone, rest, Text.ofCode_toNat]

theorem unpaired_ofChars (s : List Char) : Unpaired (.ofChars s) := by
  induction s with
  | nil => exact .nil
  | cons c s ih =>
    cases s with
    | nil => exact .singleton _
    | cons d s => exact .cons_cons (fun pair => not_isHigh_char c pair.1) ih

end Rollup.Json
