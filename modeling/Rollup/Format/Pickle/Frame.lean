import Rollup.Format.Pickle.Opcode

/-!
Frames: from protocol 4 on, instructions are packed into blocks that announce their length. A
block ends before the first object that begins once it is full; a text that would fill a block
alone stands between blocks.
-/

namespace Rollup.Pickle

/-- An instruction, or the place where an object begins. -/
inductive Token where
  | object
  | op (opcode : Opcode)
  deriving DecidableEq

def opcodes (tokens : List Token) : List Opcode :=
  tokens.filterMap fun
    | .object => none
    | .op opcode => some opcode

/-- The bytes at which a block is full. -/
def frameTarget : Nat := 65536

/-- A block of fewer bytes is written without a header. -/
def frameLeast : Nat := 4

/-- Blocks finished so far and the pieces of the open one, each latest first; the open block's
size. -/
structure Frames where
  finished : List Bytes
  pieces : List Bytes
  size : Nat

namespace Frames

def empty : Frames := ⟨[], [], 0⟩

/-- A block with its header, a code and eight bytes of length. -/
def block (size : Nat) (content : Bytes) : Bytes :=
  if size < frameLeast then content else 0x95 :: Bytes.littleEndian 8 size ++ content

def close (f : Frames) : Frames :=
  ⟨block f.size f.pieces.reverse.flatten :: f.finished, [], 0⟩

/-- Whether an instruction carries a text that stands between blocks. -/
def isLarge : Opcode → Bool
  | .unicode s => frameTarget ≤ (Bytes.utf8 s).length
  | _ => false

def add (f : Frames) : Token → Frames
  | .object => if frameTarget ≤ f.size then f.close else f
  | .op opcode =>
    let bytes := opcode.bytes
    if isLarge opcode then { f.close with finished := bytes :: f.close.finished }
    else { f with pieces := bytes :: f.pieces, size := f.size + bytes.length }

def bytes (f : Frames) : Bytes := f.close.finished.reverse.flatten

end Frames

/-- The bytes of instructions in blocks. -/
def framed (tokens : List Token) : Bytes := (tokens.foldl Frames.add .empty).bytes

/-- The bytes of instructions one after another. -/
def unframed (tokens : List Token) : Bytes :=
  tokens.flatMap fun
    | .object => []
    | .op opcode => opcode.bytes

end Rollup.Pickle
