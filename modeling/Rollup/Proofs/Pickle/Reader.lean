import Rollup.Format.Pickle.Opcode
import Rollup.Proofs.Bytes
import Rollup.Proofs.Decimal.Balanced
import Rollup.Proofs.Sample.Words
import Rollup.Proofs.Text.Reading

/-!
A reader of instructions: a code of one byte and an operand, which may be the rest of a line. Main
statement: an instruction whose operand fits is read from its bytes. Halves of pairs are read as
they stand.
-/

namespace Rollup.Pickle

/-- The characters before the end of a line, and what follows it. -/
def readLine : Bytes → Option (List Char × Bytes)
  | [] => none
  | b :: rest =>
    if b = 10 then some ([], rest)
    else (readLine rest).map fun (line, rest) => (Char.ofNat b.toNat :: line, rest)

/-- Digits without a leading zero. -/
def naturalOf? (line : List Char) : Option Nat :=
  match Numeral.readWhole line with
  | some (digits, []) => some (Nat.ofDigitChars 10 digits 0)
  | _ => none

def integerOf? (line : List Char) : Option Int :=
  let (negative, digits) := Numeral.readSign line
  (naturalOf? digits).map fun (n : Nat) => if negative then -n else n

/-- The code point of hexadecimal digits, if they are those of one. -/
def hexPoint (digits : List Char) : Option CodePoint := do
  let n ← digits.foldlM (fun n c => (Text.hexValue c).map fun digit => 16 * n + digit) 0
  if n < 0x110000 then some (Text.ofCode n) else none

/-- The text of a line, with four or eight hexadecimal digits in escapes. Every second backslash of
a row stands for itself. -/
def unescape : List Char → Option Text
  | [] => some []
  | '\\' :: 'u' :: a :: b :: c :: d :: rest => do
    let first ← hexPoint [a, b, c, d]
    return first :: (← unescape rest)
  | '\\' :: 'U' :: a :: b :: c :: d :: e :: f :: g :: h :: rest => do
    let first ← hexPoint [a, b, c, d, e, f, g, h]
    return first :: (← unescape rest)
  | '\\' :: '\\' :: rest => (unescape rest).map fun s => .scalar '\\' :: .scalar '\\' :: s
  | c :: rest => (unescape rest).map fun s => .scalar c :: s

/-- A signed integer of a count of bytes. -/
def readSigned (width : Nat) (bytes : Bytes) : Option (Int × Bytes) :=
  (Bytes.readNat width bytes).map fun (n, rest) => (Int.bmod n (2 ^ (8 * width)), rest)

/-- An instruction with a text behind its length. -/
def readText (width : Nat) (make : Text → Opcode) (bytes : Bytes) : Option (Opcode × Bytes) := do
  let (length, rest) ← Bytes.readNat width bytes
  let (utf8, rest) ← Bytes.take? length rest
  return (make (← Text.ofBytes? utf8), rest)

/-- A signed integer behind the count of its bytes. -/
def readLong (width : Nat) (bytes : Bytes) : Option (Opcode × Bytes) := do
  let (length, rest) ← Bytes.readNat width bytes
  if length < 2 ^ 31 then
    let (n, rest) ← readSigned length rest
    return (.long length n, rest)
  else none

/-- An instruction with the operand on its line. -/
def readOnLine {α : Type} (parse : List Char → Option α) (make : α → Opcode) (bytes : Bytes) :
    Option (Opcode × Bytes) := do
  let (line, rest) ← readLine bytes
  return (make (← parse line), rest)

/-- An integer with a mark behind it, or without. -/
def longOf? (line : List Char) : Option Int :=
  integerOf? (if line.getLast? = some 'L' then line.dropLast else line)

/-- An instruction with an unsigned operand of a count of bytes. -/
def readUnsigned (width : Nat) (make : Nat → Opcode) (bytes : Bytes) : Option (Opcode × Bytes) :=
  (Bytes.readNat width bytes).map fun (n, rest) => (make n, rest)

/-- An instruction by its code, and what follows it. -/
def readOperand (code : Char) (rest : Bytes) : Option (Opcode × Bytes) :=
  match code with
  | '\x80' => readUnsigned 1 .proto rest
  | '.' => some (.stop, rest)
  | '(' => some (.mark, rest)
  | 'N' => some (.none, rest)
  | 'I' => readOnLine integerOf? .intText rest
  | 'L' => readOnLine longOf? .longText rest
  | 'K' => readUnsigned 1 .int8 rest
  | 'M' => readUnsigned 2 .int16 rest
  | 'J' => (readSigned 4 rest).map fun (n, rest) => (.int32 n, rest)
  | '\x8a' => readLong 1 rest
  | '\x8b' => readLong 4 rest
  | 'F' => readOnLine Sample.ofText? .floatText rest
  | 'G' => (Bytes.take? 8 rest).map fun (word, rest) =>
      (.float (.ofBits (Bytes.ofBigEndian word)), rest)
  | 'V' => readOnLine unescape .unicodeText rest
  | 'X' => readText 4 .unicode rest
  | '\x8c' => readText 1 .shortUnicode rest
  | '\x8d' => readText 8 .unicode rest
  | ']' => some (.emptyList, rest)
  | '\x7d' => some (.emptyDict, rest)
  | 'l' => some (.list, rest)
  | 'd' => some (.dict, rest)
  | 'a' => some (.append, rest)
  | 'e' => some (.appends, rest)
  | 's' => some (.setItem, rest)
  | 'u' => some (.setItems, rest)
  | 'p' => readOnLine naturalOf? .putText rest
  | 'q' => readUnsigned 1 .put8 rest
  | 'r' => readUnsigned 4 .put32 rest
  | '\x94' => some (.memoize, rest)
  | 'g' => readOnLine naturalOf? .getText rest
  | 'h' => readUnsigned 1 .get8 rest
  | 'j' => readUnsigned 4 .get32 rest
  | _ => none

def readOpcode : Bytes → Option (Opcode × Bytes)
  | [] => none
  | code :: rest => readOperand (Char.ofNat code.toNat) rest

/-- An operand fits the bytes that it is written in. -/
def Opcode.Fits : Opcode → Prop
  | .proto version => version < 256
  | .int8 n => n < 256
  | .int16 n => n < 256 ^ 2
  | .int32 n => -(2 ^ 31) ≤ n ∧ n < 2 ^ 31
  | .long width n =>
    0 < width ∧ width < 2 ^ 31 ∧ -(2 ^ (8 * width - 1)) ≤ n ∧ n < 2 ^ (8 * width - 1)
  | .unicode s => (Bytes.utf8 s).length < 256 ^ 8
  | .shortUnicode s => (Bytes.utf8 s).length < 256
  | .put8 index => index < 256
  | .get8 index => index < 256
  | .put32 index => index < 256 ^ 4
  | .get32 index => index < 256 ^ 4
  | _ => True

variable {rest : Bytes}

theorem readLine_ofChars {line : List Char}
    (inside : ∀ c ∈ line, c.toNat < 256 ∧ c ≠ '\n') :
    readLine (Bytes.ofChars (line ++ ['\n']) ++ rest) = some (line, rest) := by
  induction line with
  | nil => rfl
  | cons c line ih =>
    obtain ⟨small, other⟩ := inside c (by simp)
    have later := ih fun d member => inside d (by simp [member])
    have byte : (UInt8.ofNat c.toNat).toNat = c.toNat := by
      rw [UInt8.toNat_ofNat']
      omega
    have more : UInt8.ofNat c.toNat ≠ 10 := by
      intro same
      have : c.toNat = 10 := by rw [← byte, same]; rfl
      exact other (Char.toNat_inj.mp this)
    simp only [Bytes.ofChars, List.map_cons, List.map_append, List.cons_append, readLine] at later ⊢
    rw [if_neg more, later, byte]
    simp

theorem naturalOf?_toDigits (n : Nat) : naturalOf? (Nat.toDigits 10 n) = some n := by
  have read := @Numeral.readWhole_append [] _ (Numeral.isWhole_toDigits n) (by simp)
  rw [List.append_nil] at read
  rw [naturalOf?, read]
  exact congrArg some Nat.ofDigitChars_ten_toDigits

theorem integerOf?_toString (n : Int) : integerOf? (toString n).toList = some n := by
  have signed := @Numeral.readSign_sign (Nat.toDigits 10 n.natAbs) (n < 0)
    (by simpa using Numeral.head_not_sign (Numeral.isWhole_toDigits n.natAbs) [])
  rw [Numeral.toList_toString]
  simp only [integerOf?, signed, naturalOf?_toDigits]
  by_cases negative : n < 0
  · simp only [negative, decide_true, Option.map_some, if_true]
    congr 1
    omega
  · simp only [negative, decide_false, Option.map_some, Bool.false_eq_true, if_false]
    congr 1
    omega

theorem foldlM_hex {width n : Nat} (first : Nat) :
    (Text.hex width n).foldlM
        (fun n c => (Text.hexValue c).map fun digit => 16 * n + digit) first =
      some (16 ^ width * first + n % 16 ^ width) := by
  induction width generalizing n with
  | zero => simp [Text.hex, Nat.mod_one]
  | succ width ih =>
    rw [Text.hex, List.foldlM_append, ih]
    have whole : 16 * (16 ^ width * first + n / 16 % 16 ^ width) + n % 16 =
        16 ^ (width + 1) * first + n % 16 ^ (width + 1) := by
      rw [Nat.pow_succ', Nat.mod_mul, Nat.mul_add, ← Nat.mul_assoc]
      omega
    simp [Text.hexValue_hexDigit, whole]

theorem hexPoint_hex {width : Nat} {p : CodePoint} (small : p.toNat < 16 ^ width) :
    hexPoint (Text.hex width p.toNat) = some p := by
  rw [hexPoint, foldlM_hex]
  simp [Nat.mod_eq_of_lt small, Text.code_lt, Text.ofCode_toNat]

theorem unescape_plain {c : Char} (other : c ≠ '\\') (s : List Char) :
    unescape (c :: s) = (unescape s).map fun s => .scalar c :: s := by
  rw [unescape]
  all_goals
    intros
    exact absurd ‹_› other

theorem unescape_short {p : CodePoint} (small : p.toNat < 16 ^ 4) (s : List Char) :
    unescape (['\\', 'u'] ++ Text.hex 4 p.toNat ++ s) = (unescape s).map fun s => p :: s := by
  have digits := hexPoint_hex small
  simp only [Text.hex, List.nil_append, List.cons_append] at digits ⊢
  rw [unescape, digits]
  cases unescape s <;> rfl

theorem unescape_long {p : CodePoint} (small : p.toNat < 16 ^ 8) (s : List Char) :
    unescape (['\\', 'U'] ++ Text.hex 8 p.toNat ++ s) = (unescape s).map fun s => p :: s := by
  have digits := hexPoint_hex small
  simp only [Text.hex, List.nil_append, List.cons_append] at digits ⊢
  rw [unescape, digits]
  cases unescape s <;> rfl

theorem unescape_lineChar (c : Char) (s : List Char) :
    unescape (lineChar c ++ s) = (unescape s).map fun s => .scalar c :: s := by
  simp only [lineChar]
  split
  · next control =>
    apply unescape_short (p := .scalar c)
    simp only [Bool.or_eq_true, decide_eq_true_eq] at control
    rcases control with (((rfl | rfl) | rfl) | rfl) | rfl <;> decide
  · next plain =>
    split
    · apply unescape_plain
      rintro rfl
      exact plain rfl
    · split
      · next small => exact unescape_short (p := .scalar c) small s
      · have small : (CodePoint.scalar c).toNat < 16 ^ 8 :=
          Nat.lt_trans (Text.toNat_lt c) (by decide)
        exact unescape_long small s

theorem unescape_linePoint (p : CodePoint) (s : List Char) :
    unescape (linePoint p ++ s) = (unescape s).map fun s => p :: s := by
  cases p with
  | scalar c => exact unescape_lineChar c s
  | half index =>
    have small : (CodePoint.half index).toNat < 16 ^ 4 := by
      have bound := index.isLt
      simp only [CodePoint.toNat]
      omega
    exact unescape_short small s

theorem unescape_flatMap (s : Text) : unescape (s.flatMap linePoint) = some s := by
  induction s with
  | nil => rfl
  | cons p s ih => rw [List.flatMap_cons, unescape_linePoint, ih, Option.map_some]

/-- Characters that stand on one line, a byte each. -/
def OnLine (line : List Char) : Prop := ∀ c ∈ line, c.toNat < 256 ∧ c ≠ '\n'

theorem readOnLine_ofChars {α : Type} {parse : List Char → Option α} {line : List Char} {x : α}
    (make : α → Opcode) (inside : OnLine line) (read : parse line = some x) :
    readOnLine parse make (Bytes.ofChars (line ++ ['\n']) ++ rest) = some (make x, rest) := by
  simp [readOnLine, readLine_ofChars inside, read]

theorem onLine_of_bounds {line : List Char} (bounds : ∀ c ∈ line, 0x20 ≤ c.toNat ∧ c.toNat < 256) :
    OnLine line := by
  intro c member
  obtain ⟨low, high⟩ := bounds c member
  refine ⟨high, ?_⟩
  rintro rfl
  exact absurd low (by decide)

theorem onLine_of_isMark {line : List Char} (marks : ∀ c ∈ line, Numeral.isMark c = true) :
    OnLine line := by
  apply onLine_of_bounds
  intro c member
  have := Numeral.isMark_bounds (marks c member)
  omega

theorem onLine_toString (n : Int) : OnLine (toString n).toList :=
  onLine_of_isMark (Numeral.integer_marks n)

theorem onLine_toDigits (n : Nat) : OnLine (Nat.toDigits 10 n) :=
  onLine_of_isMark fun c member => Numeral.isMark_of_isDigit (Numeral.toDigits_digits c member)

theorem onLine_balancedText (x : Sample) : OnLine x.balancedText := by
  cases x with
  | missing => exact Text.forall_of_all (by decide)
  | infinite negative => cases negative <;> exact Text.forall_of_all (by decide)
  | finite x =>
    apply onLine_of_bounds
    intro c member
    rcases List.mem_append.mp member with first | later
    · have := Numeral.isMark_bounds (Numeral.sign_marks _ c first)
      omega
    · have := Numeral.isPowerMark_bounds (Numeral.balanced_marks _ c later)
      omega

theorem onLine_hex (width n : Nat) : OnLine (Text.hex width n) := by
  have digits : ∀ k < 16, (Nat.digitChar k).toNat < 256 ∧ Nat.digitChar k ≠ '\n' := by decide
  induction width generalizing n with
  | zero => simp [OnLine, Text.hex]
  | succ width ih =>
    intro c member
    rcases List.mem_append.mp member with first | last
    · exact ih (n / 16) c first
    · rw [List.mem_singleton.mp last]
      exact digits (n % 16) (Nat.mod_lt n (by decide))

theorem onLine_escape {kind : Char} (inside : kind.toNat < 256 ∧ kind ≠ '\n') (width n : Nat) :
    OnLine (['\\', kind] ++ Text.hex width n) := by
  intro c member
  rcases List.mem_append.mp member with mark | digit
  · rcases List.mem_cons.mp mark with rfl | mark
    · decide
    · rwa [List.mem_singleton.mp mark]
  · exact onLine_hex width _ c digit

theorem onLine_linePoint (p : CodePoint) : OnLine (linePoint p) := by
  cases p with
  | half index => exact onLine_escape (by decide) 4 _
  | scalar d =>
    simp only [linePoint, lineChar]
    split
    · exact onLine_escape (by decide) 4 _
    · next plain =>
      split
      · next small =>
        intro c member
        rw [List.mem_singleton.mp member]
        refine ⟨small, ?_⟩
        rintro rfl
        exact plain rfl
      · split
        · exact onLine_escape (by decide) 4 _
        · exact onLine_escape (by decide) 8 _

theorem onLine_flatMap (s : Text) : OnLine (s.flatMap linePoint) := by
  intro c member
  obtain ⟨p, _, inside⟩ := List.mem_flatMap.mp member
  exact onLine_linePoint p c inside

theorem readUnsigned_append {width n : Nat} (make : Nat → Opcode) (small : n < 256 ^ width) :
    readUnsigned width make (Bytes.littleEndian width n ++ rest) = some (make n, rest) := by
  rw [readUnsigned, Bytes.readNat_append small, Option.map_some]

theorem readSigned_append {width : Nat} {n : Int} (some_byte : 0 < width)
    (low : -(2 ^ (8 * width - 1)) ≤ n) (high : n < 2 ^ (8 * width - 1)) :
    readSigned width (Bytes.littleEndian width (n % 2 ^ (8 * width)).toNat ++ rest) =
      some (n, rest) := by
  have bits : 8 * width = 8 * width - 1 + 1 := by omega
  have small : (n % 2 ^ (8 * width)).toNat < 256 ^ width := by
    have positive : (0 : Int) < 2 ^ (8 * width) := Int.pow_pos (by decide)
    have bytes : (256 : Nat) ^ width = 2 ^ (8 * width) := by rw [Nat.pow_mul]
    have below := Int.emod_lt_of_pos n positive
    rw [bytes, ← Int.ofNat_lt, Int.toNat_of_nonneg (Int.emod_nonneg n (by omega))]
    push_cast
    exact below
  have same := Bytes.bmod_emod low high
  rw [← bits] at same
  simp only [readSigned, Bytes.readNat_append small, Option.map_some, same]

theorem readText_append {width : Nat} {s : Text} (make : Text → Opcode)
    (short : (Bytes.utf8 s).length < 256 ^ width) :
    readText width make
        (Bytes.littleEndian width (Bytes.utf8 s).length ++ (Bytes.utf8 s ++ rest)) =
      some (make s, rest) := by
  simp [readText, Bytes.readNat_append short, Bytes.take?_append rfl, Text.ofBytes?_utf8]

theorem longOf?_toString (n : Int) : longOf? ((toString n).toList ++ ['L']) = some n := by
  rw [longOf?, if_pos List.getLast?_concat, List.dropLast_concat, integerOf?_toString]

theorem readLong_append {width : Nat} {n : Int} (some_byte : 0 < width) (count : Nat)
    (short : width < 256 ^ count) (small : width < 2 ^ 31)
    (low : -(2 ^ (8 * width - 1)) ≤ n) (high : n < 2 ^ (8 * width - 1)) :
    readLong count (Bytes.littleEndian count width ++
      (Bytes.littleEndian width (n % 2 ^ (8 * width)).toNat ++ rest)) =
        some (.long width n, rest) := by
  simp [readLong, Bytes.readNat_append short, small, readSigned_append some_byte low high]

theorem readOpcode_bytes {opcode : Opcode} (fits : opcode.Fits) :
    readOpcode (opcode.bytes ++ rest) = some (opcode, rest) := by
  cases opcode with
  | stop | mark | none | emptyList | emptyDict | list | dict | append | appends | setItem
  | setItems | memoize => rfl
  | intText n =>
    exact readOnLine_ofChars .intText (onLine_toString n) (integerOf?_toString n)
  | longText n =>
    have inside : OnLine ((toString n).toList ++ ['L']) := by
      intro c member
      rcases List.mem_append.mp member with digit | mark
      · exact onLine_toString n c digit
      · rw [List.mem_singleton.mp mark]
        decide
    exact readOnLine_ofChars .longText inside (longOf?_toString n)
  | floatText x =>
    exact readOnLine_ofChars .floatText (onLine_balancedText x) (Sample.ofText?_balancedText x)
  | unicodeText s => exact readOnLine_ofChars .unicodeText (onLine_flatMap s) (unescape_flatMap s)
  | putText index =>
    exact readOnLine_ofChars .putText (onLine_toDigits index) (naturalOf?_toDigits index)
  | getText index =>
    exact readOnLine_ofChars .getText (onLine_toDigits index) (naturalOf?_toDigits index)
  | proto n =>
    have small : n < 256 ^ 1 := fits
    exact readUnsigned_append .proto small
  | int8 n =>
    have small : n < 256 ^ 1 := fits
    exact readUnsigned_append .int8 small
  | int16 n =>
    have small : n < 256 ^ 2 := fits
    exact readUnsigned_append .int16 small
  | put8 index =>
    have small : index < 256 ^ 1 := fits
    exact readUnsigned_append .put8 small
  | put32 index =>
    have small : index < 256 ^ 4 := fits
    exact readUnsigned_append .put32 small
  | get8 index =>
    have small : index < 256 ^ 1 := fits
    exact readUnsigned_append .get8 small
  | get32 index =>
    have small : index < 256 ^ 4 := fits
    exact readUnsigned_append .get32 small
  | int32 n =>
    have read := @readSigned_append rest 4 n (by decide) fits.1 fits.2
    exact congrArg (Option.map fun (n, rest) => (Opcode.int32 n, rest)) read
  | long width n =>
    obtain ⟨some_byte, small, low, high⟩ := fits
    rw [Opcode.bytes]
    split
    · next short =>
      have short : width < 256 ^ 1 := short
      have read := @readLong_append rest width n some_byte 1 short small low high
      rw [List.append_assoc, List.cons_append]
      exact read
    · have short : width < 256 ^ 4 := by omega
      have read := @readLong_append rest width n some_byte 4 short small low high
      rw [List.append_assoc, List.cons_append]
      exact read
  | float x =>
    have read := Bytes.take?_append (Bytes.length_bigEndian 8 x.bits) rest
    have small : x.bits < 256 ^ 8 := x.bits_lt
    have whole := congrArg
      (Option.map fun (word, rest) => (Opcode.float (.ofBits (Bytes.ofBigEndian word)), rest)) read
    simp only [Option.map_some, Bytes.ofBigEndian_bigEndian small, Sample.ofBits_bits] at whole
    exact whole
  | unicode s =>
    have long : (Bytes.utf8 s).length < 256 ^ 8 := fits
    rw [Opcode.bytes]
    split
    · next few =>
      have short : (Bytes.utf8 s).length < 256 ^ 4 := few
      rw [List.append_assoc]
      exact readText_append .unicode short
    · rw [List.append_assoc]
      exact readText_append .unicode long
  | shortUnicode s =>
    have short : (Bytes.utf8 s).length < 256 ^ 1 := fits
    rw [Opcode.bytes, List.append_assoc]
    exact readText_append .shortUnicode short

end Rollup.Pickle
