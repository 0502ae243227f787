import Rollup.Format.Protobuf.Schema
import Rollup.Format.Protobuf.Wire
import Rollup.Series.Basic

/-!
Fetch responses as bytes. Fields that hold their default, zero or nothing, are left out. Integers
are signed 64-bit words and texts are made of characters; one that is not is a fault for the whole
response.
-/

namespace Rollup.Protobuf

/-- What a response says of one series: its samples as they are, without its view. -/
structure FetchRecord where
  name : Text
  pathExpression : Text
  consolidation : Text
  start : Int
  stop : Int
  step : Int
  xFilesFactor : Sample
  highPrecision : Bool
  values : List Sample
  appliedFunctions : List Text
  requestStart : Int
  requestStop : Int
  deriving DecidableEq

namespace FetchRecord

def ofSeries (s : Series) : FetchRecord :=
  { name := s.name
    pathExpression := s.pathExpression
    consolidation := s.consolidation
    start := s.start
    stop := s.stop
    step := s.step
    xFilesFactor := s.xFilesFactor
    highPrecision := s.highPrecision
    values := s.values
    appliedFunctions := s.appliedFunctions
    requestStart := s.requestStart
    requestStop := s.requestStop }

/-- What is put into a field that may refuse it. -/
inductive Content where
  | text (s : Text)
  | integer (n : Int)

/-- The contents of a record, in the order in which its fields are filled. -/
def contents (r : FetchRecord) : List Content :=
  [.text r.name, .text r.pathExpression, .text r.consolidation, .integer r.start, .integer r.stop,
    .integer r.step] ++ r.appliedFunctions.map .text ++
      [.integer r.requestStart, .integer r.requestStop]

/-- An integer that a field refuses is named, if it is not too long for that. -/
def Content.defect? [Runtime] : Content → Option FieldDefect
  | .text s => if s.isScalar then none else some (.notScalar s)
  | .integer n =>
    if Time.fitsWord n then none
    else match digitExcess? n with
      | some limit => some (.tooManyDigits limit)
      | none => some (.tooLarge n)

/-- A field, unless it holds its default. -/
def field (number : Nat) (isDefault : Bool) (payload : Payload) : List (Nat × Payload) :=
  if isDefault then [] else [(number, payload)]

def text (number : Nat) (s : Text) : List (Nat × Payload) :=
  field number s.isEmpty (.delimited (Bytes.utf8 s))

/-- A negative integer stands for its remainder modulo `2 ^ 64`. -/
def integer (number : Nat) (n : Int) : List (Nat × Payload) :=
  field number (n == 0) (.varint (n % 2 ^ 64).toNat)

/-- Plus zero is the default, minus zero is not. -/
def single (number : Nat) (x : Sample) : List (Nat × Payload) :=
  field number (x.singleBits == 0) (.fixed32 x.singleBits)

def flag (number : Nat) (b : Bool) : List (Nat × Payload) := field number (!b) (.varint 1)

/-- All samples in one payload. -/
def doubles (number : Nat) (xs : List Sample) : List (Nat × Payload) :=
  field number xs.isEmpty (.delimited (xs.flatMap fun x => Bytes.littleEndian 8 x.bits))

/-- One field for each text, the empty ones included. -/
def texts (number : Nat) (ss : List Text) : List (Nat × Payload) :=
  ss.map fun s => (number, .delimited (Bytes.utf8 s))

def fields (r : FetchRecord) : List (Nat × Payload) :=
  text 1 r.name ++ text 2 r.pathExpression ++ text 3 r.consolidation ++
    integer 4 r.start ++ integer 5 r.stop ++ integer 6 r.step ++
    single 7 r.xFilesFactor ++ flag 8 r.highPrecision ++ doubles 9 r.values ++
    texts 10 r.appliedFunctions ++ integer 11 r.requestStart ++ integer 12 r.requestStop

/-- The message of a record, unless a field refuses its content. -/
def message [Runtime] (r : FetchRecord) : Except Fault Bytes :=
  match r.contents.findSome? Content.defect? with
  | some defect => .error (.field defect)
  | none => .ok (messageBytes r.fields)

end FetchRecord

/-- One message for each series, in order. -/
def encode [Runtime] (series : List Series) : Except Fault Bytes := do
  let messages ← series.mapM fun s => (FetchRecord.ofSeries s).message
  return messageBytes (messages.map fun bytes => (responseField, .delimited bytes))

end Rollup.Protobuf
