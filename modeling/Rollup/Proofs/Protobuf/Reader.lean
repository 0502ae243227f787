import Rollup.Format.Protobuf.Schema
import Rollup.Format.Protobuf.Wire
import Rollup.Proofs.Bytes
import Rollup.Proofs.Sample.Words
import Rollup.Proofs.Text.Reading

/-!
A reader of messages, driven by their schema: fields that were left out have their defaults, of a
field that occurs more often than it should the last value counts, and fields outside the schema
are passed over. Main statement: the fields of a message are read from its bytes again.
-/

namespace Rollup.Protobuf

/-- A number of any length, seven bits in each byte, and what follows it. -/
def readVarint : Bytes → Option (Nat × Bytes)
  | [] => none
  | b :: rest =>
    if b.toNat < 128 then some (b.toNat, rest)
    else (readVarint rest).map fun (n, rest) => (b.toNat - 128 + 128 * n, rest)

/-- The payload of a kind. One that is a number has at most 64 bits. -/
def readPayload (kind : Nat) (bytes : Bytes) : Option (Payload × Bytes) :=
  match kind with
  | 0 => do
    let (n, rest) ← readVarint bytes
    if n < 2 ^ 64 then some (.varint n, rest) else none
  | 1 => (Bytes.readNat 8 bytes).map fun (n, rest) => (.fixed64 n, rest)
  | 2 => do
    let (length, rest) ← readVarint bytes
    let (inside, rest) ← Bytes.take? length rest
    return (.delimited inside, rest)
  | 5 => (Bytes.readNat 4 bytes).map fun (n, rest) => (.fixed32 n, rest)
  | _ => none

/-- Field numbers are positive and have at most 29 bits. -/
def readField (bytes : Bytes) : Option ((Nat × Payload) × Bytes) := do
  let (tag, rest) ← readVarint bytes
  if 8 ≤ tag ∧ tag < 2 ^ 32 then
    let (payload, rest) ← readPayload (tag % 8) rest
    return ((tag / 8, payload), rest)
  else none

/-- Up to `count` fields, with nothing after them. -/
def readFieldsUpTo : Nat → Bytes → Option (List (Nat × Payload))
  | _, [] => some []
  | 0, _ :: _ => none
  | count + 1, bytes => do
    let (field, rest) ← readField bytes
    return field :: (← readFieldsUpTo count rest)

def readFields (bytes : Bytes) : Option (List (Nat × Payload)) := readFieldsUpTo bytes.length bytes

/-- What a message may hold under a field. -/
inductive Value where
  | double (x : Sample)
  | float (x : Single)
  | int64 (n : Int)
  | bool (b : Bool)
  | string (s : List Char)

/-- Doubles one after another. -/
def readDoubles : Nat → Bytes → Option (List Value)
  | _, [] => some []
  | 0, _ :: _ => none
  | count + 1, bytes => do
    let (word, rest) ← Bytes.readNat 8 bytes
    return .double (.ofBits word) :: (← readDoubles count rest)

/-- The values in one payload: one, or any number of doubles packed together. -/
def FieldType.read : FieldType → Payload → Option (List Value)
  | double, .fixed64 word => some [.double (.ofBits word)]
  | double, .delimited bytes => readDoubles bytes.length bytes
  | float, .fixed32 word => some [.float (.ofBits word)]
  | int64, .varint n => some [.int64 (Int.bmod n (2 ^ 64))]
  | bool, .varint n => some [.bool (n != 0)]
  | string, .delimited bytes => (Text.ofUtf8 bytes).map fun s => [.string s]
  | _, _ => none

/-- The value of a field that was left out. -/
def FieldType.default : FieldType → Value
  | double => .double .zero
  | float => .float (.finite false ⟨0, 0⟩)
  | int64 => .int64 0
  | bool => .bool false
  | string => .string []

/-- The payloads under a number, in order. -/
def payloads (number : Nat) (fields : List (Nat × Payload)) : List Payload :=
  (fields.filter (·.1 == number)).map (·.2)

/-- The values of a field: any number of them if it repeats, else one. -/
def Field.read (field : Field) (fields : List (Nat × Payload)) : Option (List Value) := do
  let values := (← (payloads field.number fields).mapM field.type.read).flatten
  return if field.repeated then values else [values.getLastD field.type.default]

/-- The fields of a message by name, with their values. -/
abbrev Message := List (String × List Value)

def readMessage (schema : List Field) (bytes : Bytes) : Option Message := do
  let fields ← readFields bytes
  schema.mapM fun field => (field.read fields).map fun values => (field.name, values)

/-- The messages of a response, one for each series. -/
def readResponse (bytes : Bytes) : Option (List Message) := do
  (payloads responseField (← readFields bytes)).mapM fun
    | .delimited inside => readMessage seriesFields inside
    | _ => none

theorem readVarint_varint (n : Nat) (rest : Bytes) :
    readVarint (varint n ++ rest) = some (n, rest) := by
  induction n using Nat.strongRecOn with
  | ind n ih =>
    rw [varint]
    split
    · next small =>
      have byte : (UInt8.ofNat n).toNat = n := by
        rw [UInt8.toNat_ofNat']
        omega
      simp only [List.cons_append, List.nil_append, readVarint, byte, if_pos small]
    · next large =>
      have byte : (UInt8.ofNat (n % 128 + 128)).toNat = n % 128 + 128 := by
        rw [UInt8.toNat_ofNat']
        omega
      have whole : n % 128 + 128 - 128 + 128 * (n / 128) = n := by omega
      have more : ¬ n % 128 + 128 < 128 := by omega
      simp only [List.cons_append, readVarint, byte, if_neg more, ih (n / 128) (by omega),
        Option.map_some, whole]

/-- A payload that is a number fits its bytes. -/
def Payload.Fits : Payload → Prop
  | varint n => n < 2 ^ 64
  | fixed64 n => n < 2 ^ 64
  | delimited _ => True
  | fixed32 n => n < 2 ^ 32

theorem readPayload_bytes {payload : Payload} (fits : payload.Fits) (rest : Bytes) :
    readPayload payload.kind (payload.bytes ++ rest) = some (payload, rest) := by
  cases payload with
  | varint n =>
    have small : n < 2 ^ 64 := fits
    simp [Payload.kind, Payload.bytes, readPayload, readVarint_varint, small]
  | fixed64 n =>
    have small : n < 256 ^ 8 := fits
    simp [Payload.kind, Payload.bytes, readPayload, Bytes.readNat_append small]
  | delimited inside =>
    simp [Payload.kind, Payload.bytes, readPayload, readVarint_varint, List.append_assoc,
      Bytes.take?_append rfl]
  | fixed32 n =>
    have small : n < 256 ^ 4 := fits
    simp [Payload.kind, Payload.bytes, readPayload, Bytes.readNat_append small]

/-- A field that is read from the bytes it is written in. -/
structure Writable (field : Nat × Payload) : Prop where
  positive : 0 < field.1
  small : field.1 < 2 ^ 29
  fits : field.2.Fits

theorem readField_bytes {field : Nat × Payload} (writable : Writable field) (rest : Bytes) :
    readField (fieldBytes field ++ rest) = some (field, rest) := by
  obtain ⟨number, payload⟩ := field
  obtain ⟨positive, small, fits⟩ := writable
  simp only at positive small fits
  have kind : payload.kind < 8 := by cases payload <;> simp [Payload.kind]
  have upper : (8 * number + payload.kind) / 8 = number := by omega
  have lower : (8 * number + payload.kind) % 8 = payload.kind := by omega
  have tagged : 8 ≤ 8 * number + payload.kind ∧ 8 * number + payload.kind < 2 ^ 32 := by omega
  simp [readField, fieldBytes, List.append_assoc, readVarint_varint, tagged, upper, lower,
    readPayload_bytes fits]

theorem fieldBytes_ne_nil (field : Nat × Payload) : fieldBytes field ≠ [] := by
  rw [fieldBytes, varint]
  split <;> simp

theorem readFieldsUpTo_bytes {fields : List (Nat × Payload)} (writable : ∀ f ∈ fields, Writable f)
    {count : Nat} (enough : (messageBytes fields).length ≤ count) :
    readFieldsUpTo count (messageBytes fields) = some fields := by
  induction fields generalizing count with
  | nil => cases count <;> rfl
  | cons field fields ih =>
    obtain ⟨b, others, first⟩ := List.exists_cons_of_ne_nil (fieldBytes_ne_nil field)
    have written : messageBytes (field :: fields) = fieldBytes field ++ messageBytes fields := rfl
    have read := readField_bytes (writable field (by simp)) (messageBytes fields)
    rw [written] at enough ⊢
    rw [first] at enough read ⊢
    cases count with
    | zero => simp at enough
    | succ count =>
      have fewer : (messageBytes fields).length ≤ count := by
        simp only [List.length_append, List.length_cons] at enough
        omega
      have later := ih (fun f member => writable f (List.mem_cons_of_mem _ member)) fewer
      rw [List.cons_append] at read ⊢
      simp [readFieldsUpTo, read, later]

theorem readFields_bytes {fields : List (Nat × Payload)} (writable : ∀ f ∈ fields, Writable f) :
    readFields (messageBytes fields) = some fields :=
  readFieldsUpTo_bytes writable (Nat.le_refl _)

theorem readDoubles_bits {xs : List Sample} {count : Nat} (enough : xs.length ≤ count) :
    readDoubles count (xs.flatMap fun x => Bytes.littleEndian 8 x.bits) =
      some (xs.map .double) := by
  induction xs generalizing count with
  | nil => cases count <;> rfl
  | cons x xs ih =>
    have small : x.bits < 256 ^ 8 := x.bits_lt
    cases count with
    | zero => simp at enough
    | succ count =>
      have later := ih (Nat.le_of_succ_le_succ enough)
      have first := Bytes.readNat_append small (xs.flatMap fun x => Bytes.littleEndian 8 x.bits)
      rw [List.flatMap_cons]
      rw [Bytes.littleEndian, List.cons_append] at first ⊢
      simp [readDoubles, first, later, Sample.ofBits_bits]

/-- A double is at least one byte, so the bytes are as many as the doubles. -/
theorem read_doubles (xs : List Sample) :
    FieldType.double.read (.delimited (xs.flatMap fun x => Bytes.littleEndian 8 x.bits)) =
      some (xs.map .double) := by
  apply readDoubles_bits
  induction xs with
  | nil => exact Nat.le_refl 0
  | cons x xs ih =>
    rw [List.flatMap_cons, List.length_append, Bytes.length_littleEndian, List.length_cons]
    omega

end Rollup.Protobuf
