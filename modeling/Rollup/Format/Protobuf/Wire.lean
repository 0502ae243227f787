import Rollup.Bytes

/-!
The wire form of messages: numbered fields, each with a payload of one of four kinds.
-/

namespace Rollup.Protobuf

inductive Payload where
  | varint (n : Nat)
  | fixed64 (n : Nat)
  | delimited (bytes : Bytes)
  | fixed32 (n : Nat)
  deriving DecidableEq, Repr

/-- Seven bits in each byte, the lowest first; all bytes but the last have their high bit set. -/
def varint (n : Nat) : Bytes :=
  if n < 128 then [UInt8.ofNat n] else UInt8.ofNat (n % 128 + 128) :: varint (n / 128)
termination_by n
decreasing_by omega

def Payload.kind : Payload → Nat
  | varint _ => 0
  | fixed64 _ => 1
  | delimited _ => 2
  | fixed32 _ => 5

def Payload.bytes : Payload → Bytes
  | varint n => Protobuf.varint n
  | fixed64 n => Bytes.littleEndian 8 n
  | delimited bytes => Protobuf.varint bytes.length ++ bytes
  | fixed32 n => Bytes.littleEndian 4 n

/-- A field: its number and kind in one varint, then its payload. -/
def fieldBytes (field : Nat × Payload) : Bytes :=
  varint (8 * field.1 + field.2.kind) ++ field.2.bytes

def messageBytes (fields : List (Nat × Payload)) : Bytes := fields.flatMap fieldBytes

end Rollup.Protobuf
