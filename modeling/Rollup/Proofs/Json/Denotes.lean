import Mathlib.Data.List.Forall2
import Rollup.Proofs.Groups
import Rollup.Proofs.Json.Reader

/-!
Texts that the reader takes for a value wherever they stand. Main statements: such texts are quoted
strings, null and numerals, and arrays and objects of such texts.
-/

namespace Rollup.Json

/-- What a text starts with if it stands for a value. -/
def Starts (text : List Char) : Prop :=
  ∃ c others, text = c :: others ∧ isBlank c = false ∧ c ≠ ']' ∧ c ≠ '\x7d'

/-- Every character can be shown in ASCII. -/
def Printable (text : List Char) : Prop := ∀ c ∈ text, 0x20 ≤ c.toNat ∧ c.toNat ≤ 0x7e

/-- The text stands for a value, whatever follows it. -/
structure Denotes (text : List Char) (v : Value) : Prop where
  printable : Printable text
  starts : Starts text
  reads : ∀ depth rest, text.length ≤ depth → Numeral.Ends rest →
    readValue depth (text ++ rest) = some (v, rest)

theorem skipBlanks_cons {c : Char} (shown : isBlank c = false) (rest : List Char) :
    skipBlanks (c :: rest) = c :: rest := by
  simp [skipBlanks, shown]

theorem Starts.ne_nil {text : List Char} (starts : Starts text) : text ≠ [] := by
  obtain ⟨c, others, rfl, _⟩ := starts
  exact List.cons_ne_nil c others

theorem Starts.succ_depth {text : List Char} {depth : Nat} (starts : Starts text)
    (deep : text.length ≤ depth) : ∃ inner, depth = inner + 1 := by
  apply Nat.exists_eq_succ_of_ne_zero
  rintro rfl
  exact starts.ne_nil (List.length_eq_zero_iff.mp (Nat.le_zero.mp deep))

theorem skipBlanks_of_starts {text : List Char} (starts : Starts text) (rest : List Char) :
    skipBlanks (text ++ rest) = text ++ rest := by
  obtain ⟨c, others, rfl, shown, _, _⟩ := starts
  exact skipBlanks_cons shown (others ++ rest)

theorem Printable.append {first second : List Char} (left : Printable first)
    (right : Printable second) : Printable (first ++ second) := by
  intro c member
  rcases List.mem_append.mp member with before | after
  · exact left c before
  · exact right c after

theorem Printable.cons {c : Char} {rest : List Char} (head : 0x20 ≤ c.toNat ∧ c.toNat ≤ 0x7e)
    (tail : Printable rest) : Printable (c :: rest) := by
  intro d member
  rcases List.mem_cons.mp member with rfl | later
  · exact head
  · exact tail d later

theorem Printable.intercalate {texts : List (List Char)} (all : ∀ text ∈ texts, Printable text) :
    Printable ([','].intercalate texts) := by
  induction texts with
  | nil =>
    intro c member
    simp at member
  | cons text texts ih =>
    have first := all text (by simp)
    cases texts with
    | nil => simpa using first
    | cons next texts =>
      have later := ih fun text member => all text (List.mem_cons_of_mem _ member)
      rw [List.intercalate_cons_cons, List.append_assoc]
      exact first.append (later.cons (by decide))

theorem read_of_denotes {text : List Char} {v : Value} (denotes : Denotes text v) :
    read text = some v := by
  have whole := denotes.reads text.length [] (Nat.le_refl _) Numeral.ends_nil
  rw [List.append_nil] at whole
  rw [read, whole]
  rfl

theorem printable_unit16 (n : Nat) : Printable (unit16 n) := by
  have digits : ∀ k < 16, 0x20 ≤ (Nat.digitChar k).toNat ∧ (Nat.digitChar k).toNat ≤ 0x7e := by
    decide
  have digit (k : Nat) : 0x20 ≤ (Text.hexDigit k).toNat ∧ (Text.hexDigit k).toNat ≤ 0x7e :=
    digits (k % 16) (Nat.mod_lt k (by decide))
  intro c member
  simp only [unit16, Text.hex, List.nil_append, List.cons_append, List.mem_cons, List.not_mem_nil,
    or_false] at member
  rcases member with rfl | rfl | rfl | rfl | rfl | rfl
  · decide
  · decide
  · exact digit _
  · exact digit _
  · exact digit _
  · exact digit _

theorem printable_escapeChar (c : Char) : Printable (escapeChar c) := by
  have short {e : Char} (shown : 0x20 ≤ e.toNat ∧ e.toNat ≤ 0x7e) : Printable ['\\', e] := by
    intro d member
    simp only [List.mem_cons, List.not_mem_nil, or_false] at member
    rcases member with rfl | rfl
    · decide
    · exact shown
  simp only [escapeChar]
  split
  · next quote =>
    simp only [Bool.or_eq_true, decide_eq_true_eq] at quote
    rcases quote with rfl | rfl
    · exact short (by decide)
    · exact short (by decide)
  · split
    · exact short (by decide)
    · split
      · exact short (by decide)
      · split
        · exact short (by decide)
        · split
          · exact short (by decide)
          · split
            · exact short (by decide)
            · split
              · next shown =>
                intro d member
                rw [List.mem_singleton.mp member]
                omega
              · split
                · exact printable_unit16 _
                · exact (printable_unit16 _).append (printable_unit16 _)

theorem printable_escapePoint (p : CodePoint) : Printable (escapePoint p) := by
  cases p with
  | scalar c => exact printable_escapeChar c
  | half index => exact printable_unit16 _

theorem printable_quoted (s : Text) : Printable (quoted s) := by
  have escaped : Printable (s.flatMap escapePoint) := by
    intro c member
    obtain ⟨p, _, inside⟩ := List.mem_flatMap.mp member
    exact printable_escapePoint p c inside
  exact (escaped.append (Printable.cons (by decide) (by simp [Printable]))).cons (by decide)

theorem quoted_append (s : Text) (rest : List Char) :
    quoted s ++ rest = '\x22' :: (s.flatMap escapePoint ++ '\x22' :: rest) := by
  simp [quoted]

theorem starts_quoted (s : Text) (rest : List Char) : Starts (quoted s ++ rest) :=
  ⟨'\x22', _, rfl, by decide, by decide, by decide⟩

theorem denotes_quoted (s : Text) : Denotes (quoted s) (.text (joined s)) where
  printable := printable_quoted s
  starts := by simpa using starts_quoted s []
  reads := by
    intro depth rest deep _
    obtain ⟨depth, rfl⟩ : ∃ inner, depth = inner + 1 :=
      Starts.succ_depth (by simpa using starts_quoted s []) deep
    rw [quoted_append, readValue, skipBlanks_cons (by decide)]
    simp only [if_true, readText_escaped, Option.map_some]

theorem denotes_null : Denotes "null".toList .null := by
  have starts : Starts "null".toList := ⟨'n', _, rfl, by decide, by decide, by decide⟩
  refine ⟨Text.forall_of_all (by decide), starts, ?_⟩
  intro depth rest deep _
  obtain ⟨depth, rfl⟩ := starts.succ_depth deep
  rfl

theorem denotes_number {text : List Char} {n : Numeral}
    (marks : ∀ c ∈ text, Numeral.isMark c = true)
    (written : ∀ rest, Numeral.Ends rest → Numeral.read (text ++ rest) = some (n, rest)) :
    Denotes text (.number n) := by
  obtain ⟨c, others, rfl⟩ : ∃ c others, text = c :: others := by
    apply List.exists_cons_of_ne_nil
    rintro rfl
    have alone := written [] Numeral.ends_nil
    cases alone
  have other {d : Char} : Numeral.isMark d = false → c ≠ d :=
    Numeral.ne_of_isMark (marks c (by simp))
  have shown : isBlank c = false := by
    have space : c ≠ ' ' := other (by decide)
    have tab : c ≠ '\t' := other (by decide)
    have feed : c ≠ '\n' := other (by decide)
    have back : c ≠ '\r' := other (by decide)
    simp [isBlank, space, tab, feed, back]
  have starts : Starts (c :: others) :=
    ⟨c, others, rfl, shown, other (by decide), other (by decide)⟩
  refine ⟨?_, starts, ?_⟩
  · intro d member
    have bounds := Numeral.isMark_bounds (marks d member)
    omega
  · intro depth rest deep ends
    have value := written rest ends
    obtain ⟨depth, rfl⟩ := starts.succ_depth deep
    rw [List.cons_append] at value ⊢
    rw [readValue, skipBlanks_cons shown]
    simp only
    rw [if_neg (other (by decide)), if_neg (other (by decide)), if_neg (other (by decide)),
      if_neg (other (by decide)), if_neg (other (by decide)), if_neg (other (by decide)), value]
    rfl

theorem denotes_integer (n : Int) : Denotes (toString n).toList (.number (.ofInt n)) := by
  apply denotes_number (Numeral.integer_marks n)
  intro rest ends
  exact Numeral.read_integer n ends

section Sequence

variable {α : Type} {item : List Char → Option (α × List Char)} {close : Char}
variable {texts : List (List Char)} {values : List α}

/-- The text is read as one item. -/
structure IsItem (item : List Char → Option (α × List Char)) (text : List Char) (v : α) :
    Prop where
  starts : Starts text
  reads : ∀ rest, Numeral.Ends rest → item (text ++ rest) = some (v, rest)

theorem ends_separator {c : Char} (separator : c = ',' ∨ c = ']' ∨ c = '\x7d')
    (rest : List Char) : Numeral.Ends (c :: rest) := by
  intro d first
  cases first
  rcases separator with rfl | rfl | rfl <;> decide

theorem readSequence_intercalate (closing : close = ']' ∨ close = '\x7d')
    (items : List.Forall₂ (IsItem item) texts values) (some_item : texts ≠ []) {count : Nat}
    (enough : texts.length ≤ count) (rest : List Char) :
    readSequence item close count ([','].intercalate texts ++ close :: rest) =
      some (values, rest) := by
  induction items generalizing count with
  | nil => exact absurd rfl some_item
  | @cons text v texts values first others ih =>
    have some_count : count ≠ 0 := by
      rintro rfl
      simp at enough
    obtain ⟨count, rfl⟩ := Nat.exists_eq_succ_of_ne_zero some_count
    have comma : close ≠ ',' := by rcases closing with rfl | rfl <;> decide
    have shown : isBlank close = false := by rcases closing with rfl | rfl <;> decide
    cases others with
    | nil =>
      have alone := first.reads (close :: rest) (ends_separator (.inr closing) rest)
      rw [List.intercalate_singleton, readSequence, alone]
      simp only [Option.bind_eq_bind, Option.bind_some, skipBlanks_cons shown, if_neg comma,
        if_true]
    | @cons next _ nexts _ second others =>
      have later := ih (by simp) (Nat.le_of_succ_le_succ enough)
      have before := first.reads _
        (ends_separator (.inl rfl) ([','].intercalate (next :: nexts) ++ close :: rest))
      have between : isBlank ',' = false := by decide
      rw [List.intercalate_cons_cons, List.append_assoc, List.append_assoc,
        List.singleton_append, readSequence, before]
      simp only [Option.bind_eq_bind, Option.bind_some, skipBlanks_cons between, if_true, later]
      rfl

theorem length_le_intercalate (some_char : ∀ text ∈ texts, text ≠ []) :
    texts.length ≤ ([','].intercalate texts).length + 1 := by
  induction texts with
  | nil => exact Nat.zero_le _
  | cons text texts ih =>
    have later := ih fun text member => some_char text (List.mem_cons_of_mem _ member)
    cases texts with
    | nil => simp
    | cons next texts =>
      rw [List.intercalate_cons_cons, List.length_append, List.length_append, List.length_cons]
      simp only [List.length_singleton]
      omega

theorem length_le_of_mem {text : List Char} (member : text ∈ texts) :
    text.length ≤ ([','].intercalate texts).length := by
  induction texts with
  | nil => cases member
  | cons first texts ih =>
    cases texts with
    | nil =>
      rw [List.mem_singleton.mp member]
      simp
    | cons next texts =>
      rw [List.intercalate_cons_cons, List.length_append, List.length_append]
      rcases List.mem_cons.mp member with rfl | later
      · omega
      · have bound := ih later
        omega

theorem starts_intercalate {text : List Char} (first : Starts text) (texts : List (List Char)) :
    Starts ([','].intercalate (text :: texts)) := by
  obtain ⟨c, others, rfl, bounds⟩ := first
  cases texts with
  | nil => exact ⟨c, others, by simp, bounds⟩
  | cons next texts => exact ⟨c, _, by rw [List.intercalate_cons_cons]; rfl, bounds⟩

theorem readItems_intercalate (closing : close = ']' ∨ close = '\x7d')
    (items : List.Forall₂ (IsItem item) texts values) (rest : List Char) :
    readItems item close ([','].intercalate texts ++ close :: rest) = some (values, rest) := by
  cases items with
  | nil =>
    have shown : isBlank close = false := by rcases closing with rfl | rfl <;> decide
    rw [List.intercalate_nil, List.nil_append, readItems, skipBlanks_cons shown]
    simp only [if_true]
  | @cons text v texts values first others =>
    have all : List.Forall₂ (IsItem item) (text :: texts) (v :: values) := .cons first others
    have starts := forall_of_forall₂ all fun _ _ read => read.starts
    have joined := starts_intercalate first.starts texts
    have enough : (text :: texts).length ≤
        ([','].intercalate (text :: texts) ++ close :: rest).length := by
      have count := length_le_intercalate fun text' member => (starts text' member).ne_nil
      rw [List.length_append]
      simp only [List.length_cons] at count ⊢
      omega
    have sequence := readSequence_intercalate closing all (by simp) enough rest
    rw [readItems, skipBlanks_of_starts joined]
    obtain ⟨c, more, whole, _, array, object⟩ := joined
    have other : c ≠ close := by rcases closing with rfl | rfl <;> assumption
    rw [whole, List.cons_append] at sequence ⊢
    simp only [if_neg other]
    exact sequence

end Sequence

/-- The text is a key and a text for its value. -/
def DenotesEntry (text : List Char) (entry : Text × Value) : Prop :=
  ∃ key written, text = quoted key ++ ':' :: written ∧ entry.1 = joined key ∧
    Denotes written entry.2

theorem Denotes.entry {written : List Char} {v : Value} (denotes : Denotes written v)
    (key : Text) : DenotesEntry (quoted key ++ ':' :: written) (joined key, v) :=
  ⟨key, written, rfl, rfl, denotes⟩

theorem Denotes.isItem {text : List Char} {v : Value} {depth : Nat} (denotes : Denotes text v)
    (deep : text.length ≤ depth) : IsItem (readValue depth) text v where
  starts := denotes.starts
  reads := fun rest ends => denotes.reads depth rest deep ends

theorem DenotesEntry.isItem {text : List Char} {entry : Text × Value} {depth : Nat}
    (denotes : DenotesEntry text entry) (deep : text.length ≤ depth) :
    IsItem (readEntry (readValue depth)) text entry := by
  obtain ⟨_, v⟩ := entry
  obtain ⟨key, written, rfl, rfl, value⟩ := denotes
  constructor
  · exact starts_quoted key _
  · intro rest ends
    have shorter : written.length ≤ depth := by
      rw [List.length_append, List.length_cons] at deep
      omega
    have after := value.reads depth rest shorter ends
    have quote : isBlank '\x22' = false := by decide
    have colon : isBlank ':' = false := by decide
    rw [List.append_assoc, quoted_append, readEntry, skipBlanks_cons quote]
    simp only [readText_escaped, Option.bind_eq_bind, Option.bind_some, List.cons_append,
      skipBlanks_cons colon, after]
    rfl

theorem DenotesEntry.printable {text : List Char} {entry : Text × Value}
    (denotes : DenotesEntry text entry) : Printable text := by
  obtain ⟨key, written, rfl, _, value⟩ := denotes
  exact (printable_quoted _).append (value.printable.cons (by decide))

section Enclosed

variable {texts : List (List Char)} {opening closing : Char}

theorem printable_enclosed (before : 0x20 ≤ opening.toNat ∧ opening.toNat ≤ 0x7e)
    (after : 0x20 ≤ closing.toNat ∧ closing.toNat ≤ 0x7e)
    (inside : ∀ text ∈ texts, Printable text) :
    Printable (opening :: [','].intercalate texts ++ [closing]) := by
  have none_left : Printable [] := by simp [Printable]
  exact ((Printable.intercalate inside).append (none_left.cons after)).cons before

theorem length_le_of_enclosed {depth : Nat}
    (deep : (opening :: [','].intercalate texts ++ [closing]).length ≤ depth + 1) :
    ∀ text ∈ texts, text.length ≤ depth := by
  intro text member
  have within := length_le_of_mem member
  simp only [List.cons_append, List.length_cons, List.length_append] at deep
  omega

theorem denotes_array {values : List Value} (items : List.Forall₂ Denotes texts values) :
    Denotes ('[' :: [','].intercalate texts ++ [']']) (.array values) := by
  have starts : Starts ('[' :: [','].intercalate texts ++ [']']) :=
    ⟨'[', _, rfl, by decide, by decide, by decide⟩
  have inside := forall_of_forall₂ items fun _ _ denotes => denotes.printable
  refine ⟨printable_enclosed (by decide) (by decide) inside, starts, ?_⟩
  intro depth rest deep _
  obtain ⟨depth, rfl⟩ := starts.succ_depth deep
  have bounded := (List.forall₂_and_left _ _).mpr ⟨length_le_of_enclosed deep, items⟩
  have read := readItems_intercalate (.inl rfl)
    (bounded.imp fun _ _ item => item.2.isItem item.1) rest
  have shown : isBlank '[' = false := by decide
  have text : '[' ≠ '\x22' := by decide
  rw [List.cons_append, List.cons_append, readValue, skipBlanks_cons shown, List.append_assoc,
    List.singleton_append]
  simp only [text, if_false, if_true, read, Option.map_some]

theorem denotes_object {entries : List (Text × Value)}
    (items : List.Forall₂ DenotesEntry texts entries) :
    Denotes ('\x7b' :: [','].intercalate texts ++ ['\x7d']) (.object entries) := by
  have starts : Starts ('\x7b' :: [','].intercalate texts ++ ['\x7d']) :=
    ⟨'\x7b', _, rfl, by decide, by decide, by decide⟩
  have inside := forall_of_forall₂ items fun _ _ denotes => denotes.printable
  refine ⟨printable_enclosed (by decide) (by decide) inside, starts, ?_⟩
  intro depth rest deep _
  obtain ⟨depth, rfl⟩ := starts.succ_depth deep
  have bounded := (List.forall₂_and_left _ _).mpr ⟨length_le_of_enclosed deep, items⟩
  have read := readItems_intercalate (.inr rfl)
    (bounded.imp fun _ _ item => item.2.isItem item.1) rest
  have shown : isBlank '\x7b' = false := by decide
  have text : '\x7b' ≠ '\x22' := by decide
  have array : '\x7b' ≠ '[' := by decide
  rw [List.cons_append, List.cons_append, readValue, skipBlanks_cons shown, List.append_assoc,
    List.singleton_append]
  simp only [text, array, if_false, if_true, read, Option.map_some]

end Enclosed

end Rollup.Json
