import Mathlib.Data.List.Basic
import Rollup.Bytes
import Rollup.Text.Literal

/-!
Taking written text apart: at every separator, at the first or the last ones, and out of percent
escapes and UTF-8. Main statements: a text joined of parts free of the separator is cut into those
parts again, and UTF-8 is decoded to the text it encodes.
-/

namespace Rollup.Text

section Cutting

variable {α : Type} [DecidableEq α]

variable {separator : α} {part rest : List α} {parts : List (List α)}

theorem splitOn_cons_separator (separator : α) (s : List α) :
    splitOn separator (separator :: s) = [] :: splitOn separator s := by
  simp [splitOn]

theorem splitOn_cons {c : α} (other : c ≠ separator) {s next : List α}
    (rest : splitOn separator s = next :: parts) :
    splitOn separator (c :: s) = (c :: next) :: parts := by
  rw [splitOn] at rest ⊢
  rw [List.foldr_cons, rest]
  simp [other]

theorem splitOn_of_free (free : separator ∉ part) : splitOn separator part = [part] := by
  induction part with
  | nil => rfl
  | cons c part ih =>
    rw [List.mem_cons, not_or] at free
    exact splitOn_cons (Ne.symm free.1) (ih free.2)

theorem splitOn_append (free : separator ∉ part) :
    splitOn separator (part ++ separator :: rest) = part :: splitOn separator rest := by
  induction part with
  | nil => exact splitOn_cons_separator separator rest
  | cons c part ih =>
    rw [List.mem_cons, not_or] at free
    exact splitOn_cons (Ne.symm free.1) (ih free.2)

end Cutting

theorem forall_of_all {α : Type} {p : α → Prop} [DecidablePred p] {s : List α}
    (all : s.all (fun c => decide (p c)) = true) : ∀ c ∈ s, p c := by
  intro c member
  exact of_decide_eq_true (List.all_eq_true.mp all c member)

/-- The value of a hexadecimal digit in either case. -/
def hexValue (c : Char) : Option Nat :=
  if '0' ≤ c ∧ c ≤ '9' then some (c.toNat - '0'.toNat)
  else if 'a' ≤ c ∧ c ≤ 'f' then some (c.toNat - 'a'.toNat + 10)
  else if 'A' ≤ c ∧ c ≤ 'F' then some (c.toNat - 'A'.toNat + 10)
  else none

theorem toNat_lt (c : Char) : c.toNat < 0x110000 := by
  rcases c.valid with before | ⟨_, bound⟩
  · exact Nat.lt_trans before (by decide)
  · exact bound

/-- A character is no half of a pair. -/
theorem toNat_outside (c : Char) : ¬ (0xd800 ≤ c.toNat ∧ c.toNat < 0xe000) := by
  rcases c.valid with before | ⟨after, _⟩
  · exact fun inside => absurd before (Nat.not_lt.mpr inside.1)
  · exact fun inside => absurd inside.2 (Nat.not_lt.mpr after)

/-- The code point of a number. -/
def ofCode (n : Nat) : CodePoint :=
  if 0xd800 ≤ n ∧ n < 0xe000 then .half (Fin.ofNat 0x800 (n - 0xd800)) else .scalar (Char.ofNat n)

theorem ofCode_toNat (p : CodePoint) : ofCode p.toNat = p := by
  cases p with
  | scalar c => rw [CodePoint.toNat, ofCode, if_neg (toNat_outside c), Char.ofNat_toNat]
  | half index =>
    have bound := index.isLt
    have inside : 0xd800 ≤ 0xd800 + index.val ∧ 0xd800 + index.val < 0xe000 := by omega
    rw [CodePoint.toNat, ofCode, if_pos inside, Nat.add_sub_cancel_left, Fin.ofNat_val_eq_self]

theorem code_lt (p : CodePoint) : p.toNat < 0x110000 := by
  cases p with
  | scalar c => exact toNat_lt c
  | half index =>
    have bound := index.isLt
    simp only [CodePoint.toNat]
    omega

theorem codes_injective {s t : Text} (same : s.codes = t.codes) : s = t := by
  refine List.map_inj_right ?_ |>.mp same
  intro p q equal
  rw [← ofCode_toNat p, equal, ofCode_toNat]

instance : Std.IsLinearOrder Text where
  le_refl s := List.le_refl s.codes
  le_trans s t u first second :=
    @List.le_trans Nat _ _ _ _ s.codes t.codes u.codes first second
  le_antisymm _ _ first second := codes_injective (List.le_antisymm first second)
  le_total s t := List.le_total s.codes t.codes

theorem isScalar_append (s t : Text) : isScalar (s ++ t) = (isScalar s && isScalar t) :=
  List.all_append

/-- The characters in a text. -/
def chars (s : Text) : List Char := s.filterMap CodePoint.char?

theorem chars_ofChars (s : List Char) : (ofChars s).chars = s := by
  have each : CodePoint.char? ∘ CodePoint.scalar = some := rfl
  rw [chars, ofChars, List.filterMap_map, each, List.filterMap_some]

theorem ofChars_chars {s : Text} (scalar : s.isScalar = true) : ofChars s.chars = s := by
  obtain ⟨chars, rfl⟩ := eq_ofChars_of_isScalar scalar
  rw [chars_ofChars]

/-- Texts that make up characters are characters themselves. -/
theorem exists_parts {texts : List Text} {chars : List Char}
    (whole : texts.flatten = ofChars chars) :
    ∃ parts : List (List Char), texts = parts.map ofChars ∧ chars = parts.flatten := by
  induction texts generalizing chars with
  | nil => exact ⟨[], rfl, List.map_eq_nil_iff.mp whole.symm⟩
  | cons text texts ih =>
    obtain ⟨first, rest, rfl, one, others⟩ := List.map_eq_append_iff.mp whole.symm
    obtain ⟨parts, rfl, rfl⟩ := ih others.symm
    exact ⟨first :: parts, by rw [List.map_cons, ← one]; rfl, rfl⟩

theorem hexValue_hexDigit (n : Nat) : hexValue (hexDigit n) = some (n % 16) := by
  have digits : ∀ k < 16, hexValue (Nat.digitChar k) = some k := by decide
  exact digits (n % 16) (Nat.mod_lt n (by decide))

/-- The characters that bytes are the UTF-8 form of, if they are of any. -/
def ofUtf8 (bytes : Bytes) : Option (List Char) :=
  bytes.toByteArray.utf8Decode?.map Array.toList

theorem utf8_ofChars (s : List Char) :
    Bytes.utf8 (ofChars s) = s.flatMap String.utf8EncodeChar := by
  rw [Bytes.utf8, ofChars, List.flatMap_map]
  rfl

theorem ofUtf8_utf8 (s : List Char) : ofUtf8 (Bytes.utf8 (ofChars s)) = some s := by
  have encoded : (Bytes.utf8 (ofChars s)).toByteArray = s.utf8Encode := by
    rw [utf8_ofChars, List.utf8Encode]
  rw [ofUtf8, encoded, List.utf8Decode?_utf8Encode]
  simp

/-! UTF-8 in which halves of pairs have the bytes that their numbers give. -/

/-- A number continued by bytes that hold six bits each. -/
def readContinued : Nat → Nat → Bytes → Option (Nat × Bytes)
  | 0, n, rest => some (n, rest)
  | count + 1, n, b :: rest =>
    if 0x80 ≤ b.toNat ∧ b.toNat < 0xc0 then readContinued count (64 * n + (b.toNat - 0x80)) rest
    else none
  | _ + 1, _, [] => none

/-- The number of the first code point, in no more bytes than it needs, and what follows it. -/
def readCode : Bytes → Option (Nat × Bytes)
  | [] => none
  | b :: rest =>
    if b.toNat < 0x80 then some (b.toNat, rest)
    else if b.toNat < 0xe0 then
      (readContinued 1 (b.toNat - 0xc0) rest).filter fun read => 0x80 ≤ read.1
    else if b.toNat < 0xf0 then
      (readContinued 2 (b.toNat - 0xe0) rest).filter fun read => 0x800 ≤ read.1
    else (readContinued 3 (b.toNat - 0xf0) rest).filter fun read => 0x10000 ≤ read.1

/-- Up to `count` code points. -/
def readPointsUpTo : Nat → Bytes → Option Text
  | _, [] => some []
  | 0, _ :: _ => none
  | count + 1, bytes => do
    let (n, rest) ← readCode bytes
    if n < 0x110000 then return ofCode n :: (← readPointsUpTo count rest) else none

/-- The text that bytes stand for, if they stand for any. -/
def ofBytes? (bytes : Bytes) : Option Text := readPointsUpTo bytes.length bytes

/-- The bytes of a number. -/
def codeBytes (n : Nat) : Bytes :=
  if n ≤ 0x7f then [.ofNat n]
  else if n ≤ 0x7ff then [.ofNat (n / 64 % 32 + 192), .ofNat (n % 64 + 128)]
  else if n ≤ 0xffff then
    [.ofNat (n / 4096 % 16 + 224), .ofNat (n / 64 % 64 + 128), .ofNat (n % 64 + 128)]
  else
    [.ofNat (n / 262144 % 8 + 240), .ofNat (n / 4096 % 64 + 128), .ofNat (n / 64 % 64 + 128),
      .ofNat (n % 64 + 128)]

theorem utf8Point_eq (p : CodePoint) : Bytes.utf8Point p = codeBytes p.toNat := by
  cases p with
  | scalar c => rfl
  | half index =>
    have bound := index.isLt
    have first : (0xd800 + index.val) / 4096 % 16 + 224 = 0xed := by omega
    have second : (0xd800 + index.val) / 64 % 64 + 128 = 0xa0 + index.val / 0x40 := by omega
    have third : (0xd800 + index.val) % 64 + 128 = 0x80 + index.val % 0x40 := by omega
    rw [CodePoint.toNat, codeBytes, if_neg (by omega), if_neg (by omega), if_pos (by omega), first,
      second, third]
    rfl

theorem readContinued_cons {low : Nat} (small : low < 64) (count n : Nat) (rest : Bytes) :
    readContinued (count + 1) n (.ofNat (low + 128) :: rest) =
      readContinued count (64 * n + low) rest := by
  have byte : (UInt8.ofNat (low + 128)).toNat = low + 128 := by
    rw [UInt8.toNat_ofNat']
    omega
  rw [readContinued, byte, if_pos (by omega), Nat.add_sub_cancel]

theorem readCode_codeBytes {n : Nat} (small : n < 0x110000) (rest : Bytes) :
    readCode (codeBytes n ++ rest) = some (n, rest) := by
  have byte {m : Nat} (small : m < 256) : (UInt8.ofNat m).toNat = m := by
    rw [UInt8.toNat_ofNat']
    omega
  rw [codeBytes]
  split
  · rw [List.singleton_append, readCode, byte (by omega), if_pos (by omega)]
  · split
    · have whole : 64 * (n / 64 % 32) + n % 64 = n := by omega
      rw [List.cons_append, readCode, byte (by omega), if_neg (by omega), if_pos (by omega),
        List.singleton_append, readContinued_cons (by omega), Nat.add_sub_cancel, whole]
      simp only [readContinued, Option.filter, decide_eq_true_eq]
      rw [if_pos (by omega)]
    · split
      · have whole : 64 * (64 * (n / 4096 % 16) + n / 64 % 64) + n % 64 = n := by omega
        rw [List.cons_append, readCode, byte (by omega), if_neg (by omega), if_neg (by omega),
          if_pos (by omega), List.cons_append, List.singleton_append,
          readContinued_cons (by omega), readContinued_cons (by omega), Nat.add_sub_cancel, whole]
        simp only [readContinued, Option.filter, decide_eq_true_eq]
        rw [if_pos (by omega)]
      · have whole : 64 * (64 * (64 * (n / 262144 % 8) + n / 4096 % 64) + n / 64 % 64) + n % 64 =
            n := by omega
        rw [List.cons_append, readCode, byte (by omega), if_neg (by omega), if_neg (by omega),
          if_neg (by omega), List.cons_append, List.cons_append, List.singleton_append,
          readContinued_cons (by omega), readContinued_cons (by omega),
          readContinued_cons (by omega), Nat.add_sub_cancel, whole]
        simp only [readContinued, Option.filter, decide_eq_true_eq]
        rw [if_pos (by omega)]

theorem readPointsUpTo_utf8 {s : Text} {count : Nat} (enough : s.length ≤ count) :
    readPointsUpTo count (Bytes.utf8 s) = some s := by
  induction s generalizing count with
  | nil => cases count <;> rfl
  | cons p s ih =>
    have first := readCode_codeBytes (code_lt p) (Bytes.utf8 s)
    obtain ⟨count, rfl⟩ : ∃ fewer, count = fewer + 1 := ⟨count - 1, by simp at enough; omega⟩
    have later := ih (Nat.le_of_succ_le_succ enough)
    rw [Bytes.utf8, List.flatMap_cons, utf8Point_eq, ← Bytes.utf8]
    rw [readPointsUpTo]
    · simp [first, code_lt p, later, ofCode_toNat]
    · intro none
      rw [none] at first
      cases first

theorem length_le_utf8 (s : Text) : s.length ≤ (Bytes.utf8 s).length := by
  induction s with
  | nil => exact Nat.le_refl 0
  | cons p s ih =>
    have some_byte : 1 ≤ (Bytes.utf8Point p).length := by
      rw [utf8Point_eq, codeBytes]
      split_ifs <;> simp
    rw [Bytes.utf8, List.flatMap_cons, List.length_append, List.length_cons]
    rw [Bytes.utf8] at ih
    omega

theorem ofBytes?_utf8 (s : Text) : ofBytes? (Bytes.utf8 s) = some s :=
  readPointsUpTo_utf8 (length_le_utf8 s)

end Rollup.Text
