import Rollup.Bytes
import Rollup.Sample.Text
import Rollup.Text.Literal

/-!
The instructions of the stack machine that rebuilds an object graph, and their bytes.
-/

namespace Rollup.Pickle

inductive Opcode where
  | proto (version : Nat)
  | stop
  | mark
  | none
  | intText (n : Int)
  | longText (n : Int)
  | int8 (n : Nat)
  | int16 (n : Nat)
  | int32 (n : Int)
  /-- A two's complement integer of the given count of bytes. -/
  | long (width : Nat) (n : Int)
  | floatText (x : Sample)
  | float (x : Sample)
  | unicodeText (s : Text)
  | unicode (s : Text)
  /-- A text of at most 255 bytes. -/
  | shortUnicode (s : Text)
  | emptyList
  | emptyDict
  | list
  | dict
  | append
  | appends
  | setItem
  | setItems
  | putText (index : Nat)
  | put8 (index : Nat)
  | put32 (index : Nat)
  /-- Stores under the next free index. -/
  | memoize
  | getText (index : Nat)
  | get8 (index : Nat)
  | get32 (index : Nat)
  deriving DecidableEq

/-- A character of a text on one line: Latin characters stand as they are, but for the backslash,
line ends and two control characters. -/
def lineChar (c : Char) : List Char :=
  if c = '\\' || c = '\x00' || c = '\n' || c = '\r' || c = '\x1a' then
    ['\\', 'u'] ++ Text.hex 4 c.toNat
  else if c.toNat < 0x100 then [c]
  else if c.toNat < 0x10000 then ['\\', 'u'] ++ Text.hex 4 c.toNat
  else ['\\', 'U'] ++ Text.hex 8 c.toNat

def linePoint : CodePoint → List Char
  | .scalar c => lineChar c
  | .half index => ['\\', 'u'] ++ Text.hex 4 (CodePoint.half index).toNat

/-- An instruction whose operand is the rest of a line. -/
def withLine (code : Char) (line : List Char) : Bytes := Bytes.ofChars (code :: line ++ ['\n'])

/-- A code and the operand after it. -/
def withOperand (code : Char) (operand : Bytes) : Bytes := UInt8.ofNat code.toNat :: operand

namespace Opcode

def bytes : Opcode → Bytes
  | proto version => 0x80 :: Bytes.littleEndian 1 version
  | stop => Bytes.ofChars ['.']
  | mark => Bytes.ofChars ['(']
  | none => Bytes.ofChars ['N']
  | intText n => withLine 'I' (toString n).toList
  | longText n => withLine 'L' ((toString n).toList ++ ['L'])
  | int8 n => withOperand 'K' (Bytes.littleEndian 1 n)
  | int16 n => withOperand 'M' (Bytes.littleEndian 2 n)
  | int32 n => withOperand 'J' (Bytes.littleEndian 4 (n % 2 ^ 32).toNat)
  | long width n =>
    (if width < 256 then 0x8a :: Bytes.littleEndian 1 width
      else 0x8b :: Bytes.littleEndian 4 width) ++
      Bytes.littleEndian width (n % 2 ^ (8 * width)).toNat
  | floatText x => withLine 'F' x.balancedText
  | float x => withOperand 'G' (Bytes.bigEndian 8 x.bits)
  | unicodeText s => withLine 'V' (s.flatMap linePoint)
  | unicode s =>
    let utf8 := Bytes.utf8 s
    (if utf8.length < 2 ^ 32 then withOperand 'X' (Bytes.littleEndian 4 utf8.length)
      else 0x8d :: Bytes.littleEndian 8 utf8.length) ++ utf8
  | shortUnicode s =>
    let utf8 := Bytes.utf8 s
    0x8c :: Bytes.littleEndian 1 utf8.length ++ utf8
  | emptyList => Bytes.ofChars [']']
  | emptyDict => Bytes.ofChars ['\x7d']
  | list => Bytes.ofChars ['l']
  | dict => Bytes.ofChars ['d']
  | append => Bytes.ofChars ['a']
  | appends => Bytes.ofChars ['e']
  | setItem => Bytes.ofChars ['s']
  | setItems => Bytes.ofChars ['u']
  | putText index => withLine 'p' (Nat.toDigits 10 index)
  | put8 index => withOperand 'q' (Bytes.littleEndian 1 index)
  | put32 index => withOperand 'r' (Bytes.littleEndian 4 index)
  | memoize => [0x94]
  | getText index => withLine 'g' (Nat.toDigits 10 index)
  | get8 index => withOperand 'h' (Bytes.littleEndian 1 index)
  | get32 index => withOperand 'j' (Bytes.littleEndian 4 index)

end Opcode

end Rollup.Pickle
