import Mathlib.Data.List.Forall2
import Rollup.Format.Csv

/-!
A reader of comma-separated records, each ended by a line break, which the last one may lack. A
field may stand in quotes; then it may hold commas and line breaks, and quotes written twice. Main
statement: records written one after another are read again.
-/

namespace Rollup.Csv

/-- What stands before a closing quote, and what follows it. -/
def readQuoted : List Char → Option (List Char × List Char)
  | [] => none
  | '\x22' :: '\x22' :: rest => (readQuoted rest).map fun (s, rest) => ('\x22' :: s, rest)
  | '\x22' :: rest => some ([], rest)
  | c :: rest => (readQuoted rest).map fun (s, rest) => (c :: s, rest)

/-- A character that needs no quotes around it. -/
def isPlain (c : Char) : Bool := c != '\x22' && c != ',' && c != '\r' && c != '\n'

def readField : List Char → Option (List Char × List Char)
  | '\x22' :: rest => readQuoted rest
  | s => some (s.takeWhile isPlain, s.dropWhile isPlain)

/-- What follows a record. -/
def readEnd : List Char → Option (List Char)
  | [] => some []
  | '\n' :: rest => some rest
  | '\r' :: '\n' :: rest => some rest
  | _ => none

/-- A record of up to `count` fields, and what follows it. -/
def readRecordUpTo : Nat → List Char → Option (List (List Char) × List Char)
  | 0, _ => none
  | count + 1, s => do
    let (field, rest) ← readField s
    match rest with
    | ',' :: rest =>
      let (fields, rest) ← readRecordUpTo count rest
      return (field :: fields, rest)
    | rest => return ([field], ← readEnd rest)

/-- There is one field more than there are commas. -/
def readRecord (s : List Char) : Option (List (List Char) × List Char) :=
  readRecordUpTo (s.length + 1) s

def readRecordsUpTo : Nat → List Char → Option (List (List (List Char)))
  | _, [] => some []
  | 0, _ :: _ => none
  | count + 1, s => do
    let (record, rest) ← readRecord s
    return record :: (← readRecordsUpTo count rest)

def readRecords (s : List Char) : Option (List (List (List Char))) := readRecordsUpTo s.length s

variable {s rest : List Char}

theorem readQuoted_cons {c : Char} (other : c ≠ '\x22') (rest : List Char) :
    readQuoted (c :: rest) = (readQuoted rest).map fun (s, rest) => (c :: s, rest) := by
  rw [readQuoted]
  · intro more first
    exact absurd first other
  · exact other

theorem readQuoted_quoted (s : List Char) (next : ∀ c ∈ rest.head?, c ≠ '\x22') :
    readQuoted (s.flatMap (fun c => if c = '\x22' then ['\x22', '\x22'] else [c]) ++
      '\x22' :: rest) = some (s, rest) := by
  induction s with
  | nil =>
    cases rest with
    | nil => rfl
    | cons c rest =>
      have other := next c (by simp)
      rw [List.flatMap_nil, List.nil_append, readQuoted]
      rintro more same
      cases same
      exact other rfl
  | cons c s ih =>
    rw [List.flatMap_cons]
    by_cases quote : c = '\x22'
    · subst quote
      simp only [if_true, List.cons_append, List.nil_append, readQuoted, ih, Option.map_some]
    · simp only [if_neg quote, List.cons_append, List.nil_append, readQuoted_cons quote, ih,
        Option.map_some]

/-- A text of a field before a comma or a line break. -/
def IsField (field text : List Char) : Prop :=
  ∀ c rest, c = ',' ∨ c = '\n' → readField (text ++ c :: rest) = some (field, c :: rest)

/-- A field in quotes. -/
def quotedChars (s : List Char) : List Char :=
  '\x22' :: s.flatMap (fun c => if c = '\x22' then ['\x22', '\x22'] else [c]) ++ ['\x22']

theorem quoted_ofChars (s : List Char) : quoted (.ofChars s) = .ofChars (quotedChars s) := by
  simp only [quoted, quotedChars, Text.ofChars, List.flatMap_map, List.map_append, List.map_cons,
    List.map_flatMap, CodePoint.scalar.injEq, List.map_nil]
  congr 3
  funext c
  split <;> rfl

theorem isScalar_quoted (s : Text) : (quoted s).isScalar = s.isScalar := by
  have quote : CodePoint.isScalar '\x22' = true := rfl
  have each (p : CodePoint) : (if p = .scalar '\x22' then [CodePoint.scalar '\x22', '\x22']
      else [p]).all CodePoint.isScalar = p.isScalar := by
    split
    · next same => simp [same, quote]
    · simp
  simp [quoted, Text.isScalar, List.all_flatMap, each, quote]

theorem isField_quoted (s : List Char) : IsField s (quotedChars s) := by
  intro c rest separator
  have next : ∀ d ∈ (c :: rest).head?, d ≠ '\x22' := by
    rcases separator with rfl | rfl <;> simp
  have read := readQuoted_quoted s next
  simpa [quotedChars, readField] using read

theorem isField_plain (plain : ∀ c ∈ s, isPlain c = true) : IsField s s := by
  intro c rest separator
  have stop : isPlain c = false := by
    rcases separator with rfl | rfl <;> rfl
  have unquoted : ∀ more, s ++ c :: rest ≠ '\x22' :: more := by
    intro more same
    cases s with
    | nil =>
      cases same
      rcases separator with quote | quote <;> exact absurd quote (by decide)
    | cons d s =>
      cases same
      exact absurd (plain '\x22' (by simp)) (by decide)
  rw [readField]
  · simp [List.takeWhile_append_of_pos plain, List.dropWhile_append_of_pos plain, stop]
  · exact unquoted

/-- A record with its line break, in front of any text. -/
structure IsRecord (record : List (List Char)) (text : List Char) : Prop where
  some_char : text ≠ []
  read : ∀ rest, readRecord (text ++ rest) = some (record, rest)

theorem readRecordUpTo_comma {field text : List Char} (written : IsField field text) (count : Nat)
    (rest : List Char) :
    readRecordUpTo (count + 1) (text ++ ',' :: rest) =
      (readRecordUpTo count rest).map fun (fields, rest) => (field :: fields, rest) := by
  rw [readRecordUpTo]
  simp only [written ',' rest (.inl rfl), Option.bind_eq_bind, Option.bind_some]
  cases readRecordUpTo count rest <;> rfl

theorem readRecordUpTo_last {field text : List Char} (written : IsField field text) (count : Nat)
    (rest : List Char) :
    readRecordUpTo (count + 1) (text ++ '\n' :: rest) = some ([field], rest) := by
  simp [readRecordUpTo, written '\n' rest (.inr rfl), readEnd]

theorem isRecord_three {first second third one two three : List Char} (written : IsField first one)
    (written' : IsField second two) (last : IsField third three) :
    IsRecord [first, second, third] (one ++ ',' :: two ++ ',' :: three ++ ['\n']) where
  some_char := by simp
  read := by
    intro rest
    obtain ⟨count, enough⟩ : ∃ count,
        (one ++ ',' :: two ++ ',' :: three ++ ['\n'] ++ rest).length + 1 = count + 3 := by
      apply Nat.exists_eq_add_of_le'
      simp only [List.length_append, List.length_cons]
      omega
    rw [readRecord, enough]
    simp only [List.append_assoc, List.cons_append, List.nil_append]
    rw [readRecordUpTo_comma written, readRecordUpTo_comma written', readRecordUpTo_last last]
    rfl

theorem readRecordsUpTo_flatten {records : List (List (List Char))} {texts : List (List Char)}
    (written : List.Forall₂ IsRecord records texts) {count : Nat} (enough : texts.length ≤ count) :
    readRecordsUpTo count texts.flatten = some records := by
  induction written generalizing count with
  | nil => cases count <;> rfl
  | @cons record text records texts first others ih =>
    obtain ⟨c, more, same⟩ := List.exists_cons_of_ne_nil first.some_char
    have read := first.read texts.flatten
    rw [List.flatten_cons]
    rw [same, List.cons_append] at read ⊢
    cases count with
    | zero => simp at enough
    | succ count =>
      have later := ih (Nat.le_of_succ_le_succ enough)
      simp [readRecordsUpTo, read, later]

theorem readRecords_flatten {records : List (List (List Char))} {texts : List (List Char)}
    (written : List.Forall₂ IsRecord records texts) : readRecords texts.flatten = some records := by
  apply readRecordsUpTo_flatten written
  induction written with
  | nil => exact Nat.le_refl 0
  | cons first others ih =>
    have some_char := List.length_pos_iff.mpr first.some_char
    rw [List.flatten_cons, List.length_append, List.length_cons]
    omega

end Rollup.Csv
