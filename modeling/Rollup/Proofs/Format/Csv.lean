import Rollup.Operation
import Rollup.Proofs.Csv.Reader
import Rollup.Proofs.Format.Raw
import Rollup.Proofs.Time.Instants

/-!
Comma-separated lines can be read again. Main statement: in universal time, within the range of the
calendar, there is one record for each sample of a batch, with its name, second and value.
-/

namespace Rollup

/-- A computation that answers on every element does so as a function that it agrees with. -/
theorem eq_map_of_mapM {α β : Type} {f : α → Except Fault β} {g : α → β} {xs : List α}
    {ys : List β} (all : xs.mapM f = .ok ys) (each : ∀ x ∈ xs, ∀ y, f x = .ok y → y = g x) :
    ys = xs.map g := by
  induction xs generalizing ys with
  | nil =>
    cases all
    rfl
  | cons x xs ih =>
    rw [List.mapM_cons, Fault.bind_eq_ok_iff] at all
    obtain ⟨y, first, all⟩ := all
    obtain ⟨others, later, rest⟩ := Fault.bind_eq_ok_iff.mp all
    cases rest
    rw [List.map_cons, each x (by simp) y first,
      ih later fun x member => each x (List.mem_cons_of_mem _ member)]

namespace Time

/-- A second that has a date in the calendar. -/
def InRange (t : Int) : Prop := -(Zone.reach : Int) ≤ t ∧ t ≤ Zone.reach

instance (t : Int) : Decidable (InRange t) := inferInstanceAs (Decidable (_ ∧ _))

theorem wrap_of_inRange {t : Int} (range : InRange t) : wrap t = t := by
  obtain ⟨low, high⟩ := range
  simp only [Zone.reach] at low high
  exact wrap_eq_self_iff.mpr (fitsWord_iff.mpr (by omega))

theorem label_universal {t : Int} (range : InRange t) :
    label .universal t = .ok (some (DateTime.ofSeconds t).text) := by
  obtain ⟨low, high⟩ := range
  have inside : Zone.inReach t = true := by
    simp only [Zone.inReach, decide_eq_true_eq]
    omega
  have present : t ≠ missingTime := by
    simp only [Zone.reach, missingTime] at low ⊢
    omega
  have shown : t + Zone.universal.offset t = t := Int.add_zero t
  have covered : Zone.universal.covers t = true := rfl
  simp only [label, if_neg present, Zone.localTime, covered, shown, inside]
  rfl

theorem labels_universal [Runtime] {start step : Int} {count : Nat}
    {labels : List (Option (List Char))} (few : (count : Int) < addressLimit)
    (range : ∀ i < count, InRange (start + step * i))
    (made : Time.labels start step count "UTC" = .ok labels) :
    labels = (List.range count).map fun (i : Nat) =>
      some (DateTime.ofSeconds (start + step * i)).text := by
  simp only [Time.labels] at made
  split at made
  · next none =>
    cases made
    simp only [Int.natCast_eq_zero] at none
    simp [none]
  · simp only [Fault.bind_eq_ok_iff] at made
    obtain ⟨n, counted, times, wrapped, _, _, zone, found, labelled⟩ := made
    have same : n = count := by
      have answered := labelCount_eq (by omega) counted
      simp only [addressLimit] at few
      rw [if_pos (by omega)] at answered
      omega
    obtain ⟨_, _, rfl⟩ := instants_eq_ok_iff.mp wrapped
    have exact : (spaced start step count).map wrap = spaced start step count := by
      simpa [spaced] using fun i inside => wrap_of_inRange (range i inside)
    have same_zone : zone = .universal := by
      have known : (Runtime.zone "UTC").mapError (Fault.zone "UTC") = .ok .universal := by
        rw [Runtime.zone_universal]
        rfl
      exact Except.ok.inj (found.symm.trans known)
    rw [same_zone] at labelled
    rw [same, exact] at labelled
    have each : ∀ t ∈ spaced start step count, ∀ written,
        label .universal t = .ok written → written = some (DateTime.ofSeconds t).text := by
      intro t member written labelled
      obtain ⟨i, among, rfl⟩ := mem_spaced.mp member
      rw [label_universal (range i among)] at labelled
      cases labelled
      rfl
    rw [eq_map_of_mapM labelled each, spaced, List.map_map]
    rfl

end Time

namespace Csv

/-- A sample under the name of its series, at its second. -/
structure Row where
  name : Text
  second : Int
  value : Sample

/-- The samples of a series in order. -/
def rows (s : Series) : List Row :=
  s.values.zipIdx.map fun (x, i) => ⟨s.name, s.start + i * s.step, x⟩

/-- A value is left out if it is missing, and else written as a raw line has it. -/
structure IsValue (x : Sample) (text : List Char) : Prop where
  missing : text = [] ↔ x = .missing
  token : x ≠ .missing → Raw.IsToken x text

/-- What a record should say of a sample. -/
def IsRow (row : Row) (record : List (List Char)) : Prop :=
  ∃ name label value t, record = [name, label, value] ∧ row.name = .ofChars name ∧
    Time.DateTime.ofText? label = some t ∧ t.IsAt row.second ∧ IsValue row.value value

/-- The label of a second. -/
def label (second : Int) : List Char := (Time.DateTime.ofSeconds second).text

theorem value_isValue (x : Sample) : IsValue x (value x) where
  missing := by
    cases x with
    | missing => simp [value, Sample.isMissing]
    | infinite negative =>
      cases negative <;> simp [value, Sample.isMissing, Sample.text]
    | finite x =>
      have some_char := Raw.value_ne_nil (.finite x)
      constructor
      · intro none
        exact absurd none some_char
      · intro missing
        cases missing
  token := by
    intro present
    have written := Raw.value_isToken x
    cases x with
    | missing => exact absurd rfl present
    | infinite negative => exact written
    | finite x => exact written

theorem plain_of_isMark {c : Char} (mark : Numeral.isMark c = true) : isPlain c = true := by
  have other {d : Char} : Numeral.isMark d = false → c ≠ d := Numeral.ne_of_isMark mark
  simp only [isPlain, Bool.and_eq_true, bne_iff_ne]
  exact ⟨⟨⟨other (by decide), other (by decide)⟩, other (by decide)⟩, other (by decide)⟩

theorem value_plain (x : Sample) : ∀ c ∈ value x, isPlain c = true := by
  cases x with
  | missing => simp [value, Sample.isMissing]
  | infinite negative => cases negative <;> exact Text.forall_of_all (by decide)
  | finite x =>
    intro c member
    exact plain_of_isMark (Numeral.text_marks x c member)

theorem label_plain (second : Int) : ∀ c ∈ label second, isPlain c = true := by
  intro c member
  have digits (places n : Nat) (inside : c ∈ Numeral.padded places n) : isPlain c = true :=
    plain_of_isMark (Numeral.isMark_of_isDigit (Numeral.padded_digits places n c inside))
  have year (n : Int) (inside : c ∈ Time.DateTime.yearText n) : isPlain c = true := by
    simp only [Time.DateTime.yearText] at inside
    split at inside
    · rcases List.mem_cons.mp inside with rfl | later
      · rfl
      · exact digits 2 _ later
    · exact digits 3 _ inside
  simp only [label, Time.DateTime.text, List.mem_append, List.mem_cons, or_assoc] at member
  rcases member with inside | rfl | inside | rfl | inside | rfl | inside | rfl | inside | rfl |
    inside
  · exact year _ inside
  all_goals first | rfl | exact digits 1 _ inside

/-- A row as it is read. -/
def record (r : Row) : List (List Char) := [r.name.chars, label r.second, value r.value]

theorem isRow_record {r : Row} (scalar : r.name.isScalar = true) : IsRow r (record r) := by
  have time := Time.DateTime.isAt_ofSeconds r.second
  refine ⟨_, _, _, _, rfl, (Text.ofChars_chars scalar).symm, ?_, time, value_isValue r.value⟩
  obtain ⟨_, number, hour, minute, second, _⟩ := time
  exact Time.DateTime.ofText?_text (Time.Date.hasNumber_iff.mp number).1 hour minute second

/-- A row as it is written. -/
def line (r : Row) : Text := row r.name (some (label r.second)) r.value

/-- A row in characters. -/
def lineChars (r : Row) : List Char :=
  quotedChars r.name.chars ++ ',' :: label r.second ++ ',' :: value r.value ++ ['\n']

theorem line_of_isScalar {r : Row} (scalar : r.name.isScalar = true) :
    line r = .ofChars (lineChars r) := by
  have name : quoted r.name = .ofChars (quotedChars r.name.chars) := by
    rw [← quoted_ofChars, Text.ofChars_chars scalar]
  rw [line, row, name, ← Text.ofChars_append, lineChars, Option.getD_some]
  simp only [List.append_assoc]

theorem isScalar_line (r : Row) : (line r).isScalar = r.name.isScalar := by
  rw [line, row, Text.isScalar_append, isScalar_quoted, Text.isScalar_ofChars, Bool.and_true]

theorem isRecord_line (r : Row) : IsRecord (record r) (lineChars r) := by
  have label := isField_plain (label_plain r.second)
  have value := isField_plain (value_plain r.value)
  simpa [lineChars, record] using isRecord_three (isField_quoted r.name.chars) label value

/-- Lines that are made of characters have names that are. -/
theorem isScalar_of_lines {rows : List Row} {chars : List Char}
    (whole : (rows.map line).flatten = Text.ofChars chars) :
    ∀ r ∈ rows, r.name.isScalar = true := by
  intro r member
  obtain ⟨parts, same, _⟩ := Text.exists_parts whole
  have inside : line r ∈ parts.map Text.ofChars := same ▸ List.mem_map_of_mem member
  obtain ⟨part, _, written⟩ := List.mem_map.mp inside
  rw [← isScalar_line, ← written, Text.isScalar_ofChars]

section

variable [Runtime]

theorem lines_eq {s : Series} {text : Text} (range : ∀ r ∈ rows s, Time.InRange r.second)
    (written : lines "UTC" s = .ok text) : text = ((rows s).map line).flatten := by
  simp only [lines, Fault.bind_eq_ok_iff, Fault.require_eq_ok_iff, decide_eq_true_eq] at written
  obtain ⟨_, few, labels, made, rest⟩ := written
  have seconds : ∀ i < s.values.length, Time.InRange (s.start + s.step * i) := by
    intro i inside
    have member : (s.values[i], i) ∈ s.values.zipIdx := by
      simp [List.mem_zipIdx_iff_getElem?, inside]
    have second : Time.InRange (s.start + i * s.step) := range _ (List.mem_map_of_mem member)
    rwa [Int.mul_comm] at second
  cases rest
  congr 1
  rw [Time.labels_universal few seconds made]
  apply List.ext_getElem
  · simp [rows]
  · intro i inside inside'
    simp [rows, line, label, Int.mul_comm]

theorem rows_of_encode {series : List Series} {text : List Char}
    (range : ∀ s ∈ series, ∀ r ∈ rows s, Time.InRange r.second)
    (given : encode "UTC" series = .ok text) :
    text = ((series.flatMap rows).map lineChars).flatten ∧
      ∀ r ∈ series.flatMap rows, r.name.isScalar = true := by
  obtain ⟨texts, all, given⟩ := Fault.bind_eq_ok_iff.mp given
  have whole := Fault.characters_eq_ok_iff.mp given
  have each := eq_map_of_mapM all fun s member text written => lines_eq (range s member) written
  have flat : texts.flatten = ((series.flatMap rows).map line).flatten := by
    rw [each, List.map_flatMap, List.flatMap_def, List.flatten_flatten, List.map_map]
    rfl
  rw [flat] at whole
  have scalar := isScalar_of_lines whole
  refine ⟨Text.ofChars_injective ?_, scalar⟩
  rw [← whole, Text.ofChars, List.map_flatten, List.map_map]
  exact congrArg List.flatten
    (List.map_congr_left fun r member => line_of_isScalar (scalar r member))

/-- In universal time the lines of a batch, when they are written, are read as one record for each
sample, with the name of its series, its second and its value. No series changes. -/
theorem records_of_perform {store after : Store} {batch : Batch} {answer : Answer}
    (written : store.perform (.csv batch "UTC") = (.ok answer, after))
    (range : ∀ s ∈ batch.series store, ∀ r ∈ rows s, Time.InRange r.second) :
    after = store ∧ ∃ text decoded records, answer = .document (.text text) [] ∧
      Text.ofUtf8 (Bytes.utf8 (.ofChars text)) = some decoded ∧
      readRecords decoded = some records ∧
      List.Forall₂ IsRow ((batch.series store).flatMap rows) records := by
  simp only [Store.perform, Store.encoded] at written
  cases given : encode "UTC" (batch.series store) with
  | error fault =>
    rw [given] at written
    cases written
  | ok text =>
    rw [given] at written
    cases written
    obtain ⟨whole, scalar⟩ := rows_of_encode range given
    refine ⟨rfl, _, _, ((batch.series store).flatMap rows).map record, rfl,
      Text.ofUtf8_utf8 _, ?_, ?_⟩
    · rw [whole]
      apply readRecords_flatten
      rw [List.forall₂_map_left_iff, List.forall₂_map_right_iff, List.forall₂_same]
      exact fun r _ => isRecord_line r
    · rw [List.forall₂_map_right_iff, List.forall₂_same]
      exact fun r member => isRow_record (scalar r member)

end

/-- One series twice, from before year 0 into it, under a name with all that is quoted. -/
theorem records_of_perform_repeated :
    ∃ (store after : Store) (answer : Answer) (text : List Char)
        (records : List (List (List Char))),
      store = Store.run [] [
        .makeTagged "a\x22b,c\r\n" [.ofNat 1, .missing, .infinite true] 43200 (-62167305600) []] ∧
      store.perform (.csv [some 0, none, some 0] "UTC") = (.ok answer, after) ∧
      (∀ s ∈ Batch.series store [some 0, none, some 0], ∀ r ∈ rows s, Time.InRange r.second) ∧
      after = store ∧ answer = .document (.text text) [] ∧
      readRecords text = some records ∧ records.length = 6 := by
  let store : Store := Store.run [] [
    .makeTagged "a\x22b,c\r\n" [.ofNat 1, .missing, .infinite true] 43200 (-62167305600) []]
  let batch : Batch := [some 0, none, some 0]
  have range : ∀ s ∈ batch.series store, ∀ r ∈ rows s, Time.InRange r.second := by
    decide +kernel
  have six : ((batch.series store).flatMap rows).length = 6 := by decide +kernel
  have done : (store.perform (.csv batch "UTC")).1.isOk = true := by decide +kernel
  rcases written : store.perform (.csv batch "UTC") with ⟨fault | answer, after⟩
  · rw [written] at done
    cases done
  · obtain ⟨same, text, decoded, records, document, utf8, read, each⟩ :=
      records_of_perform written range
    rw [Text.ofUtf8_utf8] at utf8
    cases utf8
    exact ⟨store, after, answer, text, records, rfl, written, range, same, document, read,
      by rw [← each.length_eq, six]⟩

end Csv

end Rollup
