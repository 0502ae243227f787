import Mathlib.Data.List.Forall2
import Rollup.Operation
import Rollup.Proofs.Groups
import Rollup.Proofs.Protobuf.Reader

/-!
Fetch responses can be read again, or are refused as a whole. Main statement: where all texts are
made of characters, a response is read in full as one message for each series, with its fields and
samples, unless some integer does not fit a signed 64-bit word; then the first one that does not is
reported. A text with half of a pair on its own has no response.
-/

namespace Rollup.Protobuf

open FetchRecord (field text integer single flag doubles texts)

theorem payloads_append (number : Nat) (first second : List (Nat × Payload)) :
    payloads number (first ++ second) = payloads number first ++ payloads number second := by
  simp [payloads]

theorem payloads_field (number own : Nat) (isDefault : Bool) (payload : Payload) :
    payloads number (field own isDefault payload) =
      if own = number ∧ isDefault = false then [payload] else [] := by
  by_cases same : own = number
  · cases isDefault <;> simp [field, payloads, same]
  · cases isDefault <;> simp [field, payloads, same]

theorem payloads_delimited (number own : Nat) (contents : List Bytes) :
    payloads number (contents.map fun bytes => (own, .delimited bytes)) =
      if own = number then contents.map .delimited else [] := by
  by_cases same : own = number
  · simp [payloads, same, List.filter_map, Function.comp_def]
  · simp [payloads, same, List.filter_map, Function.comp_def]

theorem payloads_texts (number own : Nat) (ss : List Text) :
    payloads number (texts own ss) =
      if own = number then ss.map fun s => .delimited (Bytes.utf8 s) else [] := by
  have contents : texts own ss = (ss.map Bytes.utf8).map fun bytes => (own, .delimited bytes) := by
    rw [List.map_map]
    rfl
  rw [contents, payloads_delimited, List.map_map]
  rfl

/-- A field that is written once is read from its payload, or has its default. -/
theorem read_once {f : Field} {fields : List (Nat × Payload)} {isDefault : Bool}
    {payload : Payload} {value : Value} (once : f.repeated = false)
    (own : payloads f.number fields = payloads f.number (field f.number isDefault payload))
    (read : isDefault = false → f.type.read payload = some [value])
    (default : isDefault = true → f.type.default = value) :
    f.read fields = some [value] := by
  rw [payloads_field] at own
  cases isDefault with
  | false => simp [Field.read, own, read rfl, once]
  | true => simp [Field.read, own, once, default rfl]

/-- A signed 64-bit word. -/
def IsWord (n : Int) : Prop := -(2 ^ 63) ≤ n ∧ n < 2 ^ 63

instance (n : Int) : Decidable (IsWord n) := inferInstanceAs (Decidable (_ ∧ _))

theorem fitsWord_iff {n : Int} : Time.fitsWord n = true ↔ IsWord n := by
  simp [Time.fitsWord, IsWord]

theorem writable_field {f : Nat × Payload} {number : Nat} {isDefault : Bool} {payload : Payload}
    (member : f ∈ field number isDefault payload) (positive : 0 < number)
    (small : number < 2 ^ 29) (fits : payload.Fits) : Writable f := by
  cases isDefault with
  | true => cases member
  | false =>
    rw [List.mem_singleton.mp member]
    exact ⟨positive, small, fits⟩

theorem writable_fields (r : FetchRecord) : ∀ f ∈ r.fields, Writable f := by
  intro f member
  have fits_word (n : Int) : (Payload.varint (n % 2 ^ 64).toNat).Fits := by
    have : (n % 2 ^ 64).toNat < 2 ^ 64 := by omega
    exact this
  simp only [FetchRecord.fields, List.mem_append, or_assoc] at member
  rcases member with text | text | text | integer | integer | integer | single | flag | doubles |
    texts | integer | integer
  · exact writable_field text (by decide) (by decide) trivial
  · exact writable_field text (by decide) (by decide) trivial
  · exact writable_field text (by decide) (by decide) trivial
  · exact writable_field integer (by decide) (by decide) (fits_word r.start)
  · exact writable_field integer (by decide) (by decide) (fits_word r.stop)
  · exact writable_field integer (by decide) (by decide) (fits_word r.step)
  · exact writable_field single (by decide) (by decide) (Single.singleBits_lt r.xFilesFactor)
  · exact writable_field flag (by decide) (by decide) (by decide : (1 : Nat) < 2 ^ 64)
  · exact writable_field doubles (by decide) (by decide) trivial
  · obtain ⟨s, _, rfl⟩ := List.mem_map.mp texts
    exact ⟨(by decide : 0 < 10), (by decide : 10 < 2 ^ 29), trivial⟩
  · exact writable_field integer (by decide) (by decide) (fits_word r.requestStart)
  · exact writable_field integer (by decide) (by decide) (fits_word r.requestStop)

/-- What a message should say of a series. -/
def IsMessage (s : Series) (m : Message) : Prop :=
  ∃ factor name path function, ∃ functions : List (List Char),
    Single.IsNarrowed s.xFilesFactor factor ∧
    s.name = .ofChars name ∧ s.pathExpression = .ofChars path ∧
    s.consolidation = .ofChars function ∧ s.appliedFunctions = functions.map Text.ofChars ∧ m =
    [("name", [.string name]),
     ("pathExpression", [.string path]),
     ("consolidationFunc", [.string function]),
     ("startTime", [.int64 s.start]),
     ("stopTime", [.int64 s.stop]),
     ("stepTime", [.int64 s.step]),
     ("xFilesFactor", [.float factor]),
     ("highPrecisionTimestamps", [.bool s.highPrecision]),
     ("values", s.values.map .double),
     ("appliedFunctions", functions.map .string),
     ("requestStartTime", [.int64 s.requestStart]),
     ("requestStopTime", [.int64 s.requestStop])]

theorem read_text {f : Field} {fields : List (Nat × Payload)} {s : List Char}
    (type : f.type = .string) (once : f.repeated = false)
    (own : payloads f.number fields = payloads f.number (text f.number (.ofChars s))) :
    f.read fields = some [.string s] := by
  apply read_once once own
  · intro _
    simp [type, FieldType.read, Text.ofUtf8_utf8]
  · intro empty
    have none : s = [] := by simpa [Text.ofChars] using empty
    rw [type, none]
    rfl

theorem read_integer {f : Field} {fields : List (Nat × Payload)} {n : Int}
    (type : f.type = .int64) (once : f.repeated = false) (word : IsWord n)
    (own : payloads f.number fields = payloads f.number (integer f.number n)) :
    f.read fields = some [.int64 n] := by
  have same : Int.bmod ((n % 2 ^ 64).toNat : Int) (2 ^ 64) = n :=
    @Bytes.bmod_emod 63 n word.1 word.2
  apply read_once once own
  · intro _
    simp only [type, FieldType.read, same]
  · intro zero
    rw [type, beq_iff_eq.mp zero]
    rfl

theorem read_single {f : Field} {fields : List (Nat × Payload)} {x : Sample}
    (type : f.type = .float) (once : f.repeated = false)
    (own : payloads f.number fields = payloads f.number (single f.number x)) :
    f.read fields = some [.float (.ofBits x.singleBits)] := by
  apply read_once once own
  · intro _
    simp only [type, FieldType.read]
  · intro zero
    rw [type, beq_iff_eq.mp zero]
    rfl

theorem read_flag {f : Field} {fields : List (Nat × Payload)} {b : Bool}
    (type : f.type = .bool) (once : f.repeated = false)
    (own : payloads f.number fields = payloads f.number (flag f.number b)) :
    f.read fields = some [.bool b] := by
  apply read_once once own
  · intro set
    have on : b = true := by simpa using set
    rw [type, on]
    rfl
  · intro unset
    have off : b = false := by simpa using unset
    rw [type, off]
    rfl

theorem read_texts {f : Field} {fields : List (Nat × Payload)} {ss : List (List Char)}
    (type : f.type = .string) (repeats : f.repeated = true)
    (own : payloads f.number fields = payloads f.number (texts f.number (ss.map Text.ofChars))) :
    f.read fields = some (ss.map .string) := by
  have each (ss : List (List Char)) :
      (ss.map fun s => Payload.delimited (Bytes.utf8 (.ofChars s))).mapM FieldType.string.read =
        some (ss.map fun s => [.string s]) := by
    induction ss with
    | nil => rfl
    | cons s ss ih => simp [FieldType.read, Text.ofUtf8_utf8, ih]
  rw [payloads_texts, if_pos rfl, List.map_map, Function.comp_def] at own
  rw [Field.read, own, type, each]
  simp [repeats, ← List.flatMap_def, ← List.map_eq_flatMap]

theorem read_samples {f : Field} {fields : List (Nat × Payload)} {xs : List Sample}
    (type : f.type = .double) (repeats : f.repeated = true)
    (own : payloads f.number fields = payloads f.number (doubles f.number xs)) :
    f.read fields = some (xs.map .double) := by
  rw [doubles, payloads_field] at own
  cases xs with
  | nil =>
    rw [if_neg (by simp)] at own
    simp [Field.read, own, repeats]
  | cons x xs =>
    have packed := read_doubles (x :: xs)
    rw [if_pos (by simp)] at own
    simp only [Field.read, own, type, List.mapM_cons, packed, repeats]
    simp

/-- The texts of a series in a message. -/
def textsOf (s : Series) : List Text :=
  [s.name, s.pathExpression, s.consolidation] ++ s.appliedFunctions

/-- The integers of a series in a message, in the order of their fields. -/
def words (s : Series) : List Int := [s.start, s.stop, s.step, s.requestStart, s.requestStop]

theorem payloads_ofSeries (number : Nat) (s : Series) :
    payloads number (FetchRecord.ofSeries s).fields =
      payloads number (text 1 s.name) ++ payloads number (text 2 s.pathExpression) ++
      payloads number (text 3 s.consolidation) ++ payloads number (integer 4 s.start) ++
      payloads number (integer 5 s.stop) ++ payloads number (integer 6 s.step) ++
      payloads number (single 7 s.xFilesFactor) ++ payloads number (flag 8 s.highPrecision) ++
      payloads number (doubles 9 s.values) ++ payloads number (texts 10 s.appliedFunctions) ++
      payloads number (integer 11 s.requestStart) ++
      payloads number (integer 12 s.requestStop) := by
  simp only [FetchRecord.fields, FetchRecord.ofSeries, payloads_append]

theorem exists_functions {ss : List Text} (scalar : ∀ t ∈ ss, t.isScalar = true) :
    ss = (ss.map Text.chars).map Text.ofChars := by
  rw [List.map_map]
  exact (List.map_id' ss).symm.trans
    (List.map_congr_left fun t member => (Text.ofChars_chars (scalar t member)).symm)

theorem isMessage_fields {s : Series} (scalar : ∀ t ∈ textsOf s, t.isScalar = true)
    (fit : ∀ n ∈ words s, IsWord n) :
    ∃ m, readMessage seriesFields (messageBytes (FetchRecord.ofSeries s).fields) = some m ∧
      IsMessage s m := by
  obtain ⟨name, same_name⟩ :=
    Text.eq_ofChars_of_isScalar (scalar s.name (by simp [textsOf]))
  obtain ⟨path, same_path⟩ :=
    Text.eq_ofChars_of_isScalar (scalar s.pathExpression (by simp [textsOf]))
  obtain ⟨function, same_function⟩ :=
    Text.eq_ofChars_of_isScalar (scalar s.consolidation (by simp [textsOf]))
  have same_functions := exists_functions fun t member =>
    scalar t (List.mem_append_right _ member)
  refine ⟨_, ?_, _, _, _, _, _, Single.isNarrowed_ofBits s.xFilesFactor, same_name, same_path,
    same_function, same_functions, rfl⟩
  have fields := readFields_bytes (writable_fields (FetchRecord.ofSeries s))
  -- of the twelve parts of a message, eleven hold no payload under the number of the twelfth
  have own (number : Nat) := payloads_ofSeries number s
  rw [same_name, same_path, same_function, same_functions] at own
  simp only [text, integer, single, flag, doubles, payloads_field, payloads_texts] at own
  have name : Field.read ⟨1, "name", .string, false⟩ (FetchRecord.ofSeries s).fields =
      some [.string name] :=
    read_text rfl rfl (by simp [own, text, payloads_field])
  have pathExpression : Field.read ⟨2, "pathExpression", .string, false⟩
      (FetchRecord.ofSeries s).fields = some [.string path] :=
    read_text rfl rfl (by simp [own, text, payloads_field])
  have consolidation : Field.read ⟨3, "consolidationFunc", .string, false⟩
      (FetchRecord.ofSeries s).fields = some [.string function] :=
    read_text rfl rfl (by simp [own, text, payloads_field])
  have start : Field.read ⟨4, "startTime", .int64, false⟩ (FetchRecord.ofSeries s).fields =
      some [.int64 s.start] :=
    read_integer rfl rfl (fit _ (by simp [words])) (by simp [own, integer, payloads_field])
  have stop : Field.read ⟨5, "stopTime", .int64, false⟩ (FetchRecord.ofSeries s).fields =
      some [.int64 s.stop] :=
    read_integer rfl rfl (fit _ (by simp [words])) (by simp [own, integer, payloads_field])
  have step : Field.read ⟨6, "stepTime", .int64, false⟩ (FetchRecord.ofSeries s).fields =
      some [.int64 s.step] :=
    read_integer rfl rfl (fit _ (by simp [words])) (by simp [own, integer, payloads_field])
  have factor : Field.read ⟨7, "xFilesFactor", .float, false⟩ (FetchRecord.ofSeries s).fields =
      some [.float (.ofBits s.xFilesFactor.singleBits)] :=
    read_single rfl rfl (by simp [own, single, payloads_field])
  have precision : Field.read ⟨8, "highPrecisionTimestamps", .bool, false⟩
      (FetchRecord.ofSeries s).fields = some [.bool s.highPrecision] :=
    read_flag rfl rfl (by simp [own, flag, payloads_field])
  have values : Field.read ⟨9, "values", .double, true⟩ (FetchRecord.ofSeries s).fields =
      some (s.values.map .double) :=
    read_samples rfl rfl (by simp [own, doubles, payloads_field])
  have functions : Field.read ⟨10, "appliedFunctions", .string, true⟩
      (FetchRecord.ofSeries s).fields =
        some ((s.appliedFunctions.map Text.chars).map .string) :=
    read_texts rfl rfl (by simp [own, payloads_texts])
  have requestStart : Field.read ⟨11, "requestStartTime", .int64, false⟩
      (FetchRecord.ofSeries s).fields = some [.int64 s.requestStart] :=
    read_integer rfl rfl (fit _ (by simp [words])) (by simp [own, integer, payloads_field])
  have requestStop : Field.read ⟨12, "requestStopTime", .int64, false⟩
      (FetchRecord.ofSeries s).fields = some [.int64 s.requestStop] :=
    read_integer rfl rfl (fit _ (by simp [words])) (by simp [own, integer, payloads_field])
  simp [readMessage, fields, seriesFields, name, pathExpression, consolidation, start, stop, step,
    factor, precision, values, functions, requestStart, requestStop]

/-- The integer of a message that is reported: the first that is no word. -/
def firstUnfit (series : List Series) : Option Int :=
  (series.flatMap words).find? fun n => !decide (IsWord n)

section

variable [Runtime]

/-- What is said of an integer that does not fit, which is named if it can be written. -/
def wordDefect (n : Int) : FieldDefect :=
  match digitExcess? n with
  | some limit => .tooManyDigits limit
  | none => .tooLarge n

theorem defect?_integer (n : Int) :
    (FetchRecord.Content.integer n).defect? =
      if IsWord n then none else some (wordDefect n) := by
  simp only [FetchRecord.Content.defect?, fitsWord_iff, wordDefect]
  split
  · rfl
  · cases digitExcess? n <;> rfl

theorem findSome?_integers (integers : List Int) :
    (integers.map .integer).findSome? FetchRecord.Content.defect? =
      (integers.find? fun n => !decide (IsWord n)).map wordDefect := by
  induction integers with
  | nil => rfl
  | cons n integers ih =>
    rw [List.map_cons, List.findSome?_cons, List.find?_cons, defect?_integer]
    by_cases word : IsWord n
    · simpa [word] using ih
    · simp [word]

theorem findSome?_texts {ss : List Text} (scalar : ∀ t ∈ ss, t.isScalar = true) :
    (ss.map .text).findSome? FetchRecord.Content.defect? = none := by
  rw [List.findSome?_eq_none_iff]
  intro content member
  obtain ⟨t, inside, rfl⟩ := List.mem_map.mp member
  rw [FetchRecord.Content.defect?, if_pos (scalar t inside)]

/-- Only integers can be refused of a series whose texts are made of characters. -/
theorem findSome?_contents {s : Series} (scalar : ∀ t ∈ textsOf s, t.isScalar = true) :
    (FetchRecord.ofSeries s).contents.findSome? FetchRecord.Content.defect? =
      (firstUnfit [s]).map wordDefect := by
  have parts : (FetchRecord.ofSeries s).contents =
      [s.name, s.pathExpression, s.consolidation].map .text ++
        ([s.start, s.stop, s.step].map .integer ++
          (s.appliedFunctions.map .text ++ [s.requestStart, s.requestStop].map .integer)) := rfl
  have first := findSome?_texts fun t member => scalar t (List.mem_append_left _ member)
  have second := findSome?_texts fun t member => scalar t (List.mem_append_right _ member)
  have ints : words s = [s.start, s.stop, s.step] ++ [s.requestStart, s.requestStop] := rfl
  rw [parts, List.findSome?_append, List.findSome?_append, List.findSome?_append, first, second,
    Option.none_or, Option.none_or, findSome?_integers, findSome?_integers, firstUnfit,
    List.flatMap_singleton, ints, List.find?_append]
  cases [s.start, s.stop, s.step].find? fun n => !decide (IsWord n) <;> rfl

theorem message_ofSeries {s : Series} (scalar : ∀ t ∈ textsOf s, t.isScalar = true) :
    (FetchRecord.ofSeries s).message =
      match firstUnfit [s] with
      | some n => .error (.field (wordDefect n))
      | none => .ok (messageBytes (FetchRecord.ofSeries s).fields) := by
  rw [FetchRecord.message, findSome?_contents scalar]
  cases firstUnfit [s] <;> rfl

/-- A message is refused for a content of its series, and for nothing else. -/
theorem fault_of_message {s : Series} {fault : Fault}
    (failed : (FetchRecord.ofSeries s).message = .error fault) :
    ∃ defect, fault = .field defect := by
  rw [FetchRecord.message] at failed
  split at failed
  · cases failed
    exact ⟨_, rfl⟩
  · cases failed

theorem isScalar_of_message {s : Series} {bytes : Bytes}
    (done : (FetchRecord.ofSeries s).message = .ok bytes) : ∀ t ∈ textsOf s, t.isScalar = true := by
  rw [FetchRecord.message] at done
  split at done
  · cases done
  · next accepted =>
    intro t member
    have own : FetchRecord.Content.text t ∈ (FetchRecord.ofSeries s).contents := by
      simp only [textsOf, List.mem_append, List.mem_cons, List.not_mem_nil, or_false] at member
      simp only [FetchRecord.contents, FetchRecord.ofSeries, List.mem_append, List.mem_cons,
        List.mem_map, FetchRecord.Content.text.injEq, reduceCtorEq, exists_eq_right]
      tauto
    have none := List.findSome?_eq_none_iff.mp accepted _ own
    rw [FetchRecord.Content.defect?] at none
    split at none
    · assumption
    · cases none

/-- Messages are written in order until one holds an integer that does not fit. -/
theorem mapM_message {series : List Series}
    (scalar : ∀ s ∈ series, ∀ t ∈ textsOf s, t.isScalar = true) :
    series.mapM (fun s => (FetchRecord.ofSeries s).message) =
      match firstUnfit series with
      | some n => .error (.field (wordDefect n))
      | none => .ok (series.map fun s => messageBytes (FetchRecord.ofSeries s).fields) := by
  induction series with
  | nil => rfl
  | cons s series ih =>
    rw [List.mapM_cons, message_ofSeries (scalar s (by simp)),
      ih fun s member => scalar s (List.mem_cons_of_mem _ member)]
    have first : firstUnfit (s :: series) = (firstUnfit [s]).or (firstUnfit series) := by
      simp [firstUnfit, List.find?_append]
    rw [first]
    cases firstUnfit [s] with
    | some n => rfl
    | none =>
      cases firstUnfit series <;> rfl

theorem mapM_message_of_half {series : List Series}
    (half : ∃ s ∈ series, ∃ t ∈ textsOf s, t.isScalar = false) :
    ∃ defect, series.mapM (fun s => (FetchRecord.ofSeries s).message) =
      .error (.field defect) := by
  obtain ⟨s, member, t, inside, half⟩ := half
  cases all : series.mapM fun s => (FetchRecord.ofSeries s).message with
  | ok messages =>
    have scalar := forall_of_forall₂ (mapM_eq_ok_iff.mp all) (fun _ _ => isScalar_of_message) s
      member t inside
    rw [scalar] at half
    cases half
  | error fault =>
    obtain ⟨_, _, _, _, _, failed⟩ := mapM_eq_error_iff.mp all
    obtain ⟨defect, rfl⟩ := fault_of_message failed
    exact ⟨defect, rfl⟩

end

theorem isWord_of_firstUnfit {series : List Series} (fit : firstUnfit series = none) {s : Series}
    (member : s ∈ series) : ∀ n ∈ words s, IsWord n := by
  intro n among
  simpa using List.find?_eq_none.mp fit n (List.mem_flatMap.mpr ⟨s, member, among⟩)

theorem readResponse_messages {series : List Series}
    (scalar : ∀ s ∈ series, ∀ t ∈ textsOf s, t.isScalar = true)
    (fit : ∀ s ∈ series, ∀ n ∈ words s, IsWord n) :
    ∃ messages,
      readResponse (messageBytes ((series.map fun s =>
        messageBytes (FetchRecord.ofSeries s).fields).map fun bytes =>
          (responseField, .delimited bytes))) = some messages ∧
      List.Forall₂ IsMessage series messages := by
  have writable : ∀ f ∈ (series.map fun s => messageBytes (FetchRecord.ofSeries s).fields).map
      fun bytes => (responseField, Payload.delimited bytes), Writable f := by
    intro f member
    obtain ⟨bytes, _, rfl⟩ := List.mem_map.mp member
    exact ⟨(by decide : 0 < 1), (by decide : 1 < 2 ^ 29), trivial⟩
  simp only [readResponse, readFields_bytes writable, Option.bind_eq_bind, Option.bind_some,
    payloads_delimited, if_true]
  clear writable
  induction series with
  | nil => exact ⟨[], rfl, .nil⟩
  | cons s series ih =>
    obtain ⟨m, read, same⟩ := isMessage_fields (scalar s (by simp)) (fit s (by simp))
    obtain ⟨messages, later, others⟩ :=
      ih (fun s member => scalar s (List.mem_cons_of_mem _ member))
        fun s member => fit s (List.mem_cons_of_mem _ member)
    refine ⟨m :: messages, ?_, .cons same others⟩
    simp only [List.map_cons, List.mapM_cons, read, later]
    rfl

/-- A response of a batch whose texts are made of characters is read in full, with a message for
each series, or it is refused: then the first integer that does not fit is reported, under its
digits if it can be written. Any other batch has no response. -/
theorem response_of_perform [Runtime] (store : Store) (batch : Batch) :
    ((∀ s ∈ batch.series store, ∀ t ∈ textsOf s, t.isScalar = true) →
      match firstUnfit (batch.series store) with
      | none => ∃ bytes messages,
          store.perform (.protobuf batch) = (.ok (.document (.binary bytes) []), store) ∧
          readResponse bytes = some messages ∧
          List.Forall₂ IsMessage (batch.series store) messages
      | some n => ∃ defect,
          store.perform (.protobuf batch) = (.error (.field defect), store) ∧
          (isWritable n = true → defect = .tooLarge n) ∧
          ∀ limit, digitExcess? n = some limit → defect = .tooManyDigits limit) ∧
    ((∃ s ∈ batch.series store, ∃ t ∈ textsOf s, t.isScalar = false) →
      ∃ defect, store.perform (.protobuf batch) = (.error (.field defect), store)) := by
  constructor
  · intro scalar
    have written := mapM_message scalar
    split
    · next fit =>
      rw [fit] at written
      obtain ⟨messages, read, same⟩ :=
        readResponse_messages scalar fun s member => isWord_of_firstUnfit fit member
      refine ⟨_, messages, ?_, read, same⟩
      simp only [Store.perform, Store.encoded, encode, written]
      rfl
    · next n unfit =>
      rw [unfit] at written
      refine ⟨wordDefect n, ?_, fun writable => ?_, fun limit long => ?_⟩
      · simp only [Store.perform, Store.encoded, encode, written]
        rfl
      · rw [wordDefect, digitExcess?_of_isWritable writable]
      · rw [wordDefect, long]
  · intro half
    obtain ⟨defect, refused⟩ := mapM_message_of_half half
    refine ⟨defect, ?_⟩
    simp only [Store.perform, Store.encoded, encode, refused]
    rfl

/-- All integers fit, but a name that is half of a pair has no UTF-8 form; and an integer that does
not fit is not named if it has too many digits. -/
theorem response_refused :
    ∃ half long : Store,
      half = Store.run [] [.makeTagged [.half 0] [.ofNat 1] 60 0 []] ∧
      firstUnfit (Batch.series half [some 0]) = none ∧
      (half.perform (.protobuf [some 0])).1 = .error (.field (.notScalar [.half 0])) ∧
      long = Store.run [] [.makeTagged "a" [] 60 (10 ^ 4300) []] ∧
      firstUnfit (Batch.series long [some 0]) = some (10 ^ 4300) ∧
      (long.perform (.protobuf [some 0])).1 = .error (.field (.tooManyDigits 4300)) := by
  have refused (store : Store) (defect : FieldDefect)
      (written : Protobuf.encode (Batch.series store [some 0]) = .error (.field defect)) :
      (store.perform (.protobuf [some 0])).1 = .error (.field defect) := by
    simp only [Store.perform, Store.encoded, written]
    rfl
  refine ⟨_, _, rfl, by decide +kernel, refused _ _ (by decide +kernel), rfl, by decide +kernel,
    refused _ _ (by decide +kernel)⟩

end Rollup.Protobuf
