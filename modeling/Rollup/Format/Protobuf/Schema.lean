/-!
The messages of a fetch response: a response holds one message for each series.
-/

namespace Rollup.Protobuf

inductive FieldType where
  | double
  | float
  | int64
  | bool
  | string
  deriving DecidableEq, Repr

/-- The number a schema descriptor gives a type. -/
def FieldType.code : FieldType → Nat
  | double => 1
  | float => 2
  | int64 => 3
  | bool => 8
  | string => 9

structure Field where
  number : Nat
  name : String
  type : FieldType
  repeated : Bool
  deriving DecidableEq, Repr

/-- The number a schema descriptor gives to whether a field repeats. -/
def Field.labelCode (field : Field) : Nat := if field.repeated then 3 else 1

def package : String := "carbonapi_v3_pb"

/-- The fields of the message of one series. -/
def seriesFields : List Field :=
  [⟨1, "name", .string, false⟩,
   ⟨2, "pathExpression", .string, false⟩,
   ⟨3, "consolidationFunc", .string, false⟩,
   ⟨4, "startTime", .int64, false⟩,
   ⟨5, "stopTime", .int64, false⟩,
   ⟨6, "stepTime", .int64, false⟩,
   ⟨7, "xFilesFactor", .float, false⟩,
   ⟨8, "highPrecisionTimestamps", .bool, false⟩,
   ⟨9, "values", .double, true⟩,
   ⟨10, "appliedFunctions", .string, true⟩,
   ⟨11, "requestStartTime", .int64, false⟩,
   ⟨12, "requestStopTime", .int64, false⟩]

/-- The field of a response that holds the messages of its series. -/
def responseField : Nat := 1

end Rollup.Protobuf
