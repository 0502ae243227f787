import Rollup.Format.Pickle.Encode
import Rollup.Proofs.Pickle.Reader

/-!
Reading instructions to the end of their bytes, in blocks or not. A block announces the count of
its bytes; no instruction goes on past its end, and no block begins inside another. Main statement:
the instructions of a graph are read from its bytes.
-/

namespace Rollup.Pickle

/-- The code before the length of a block. -/
def blockCode : UInt8 := 0x95

/-- Instructions up to the end, with `left` bytes still to come of an open block. -/
def readOpcodesUpTo : Nat → Nat → Bytes → Option (List Opcode)
  | _, left, [] => if left = 0 then some [] else none
  | 0, _, _ :: _ => none
  | count + 1, left, code :: bytes =>
    if left = 0 ∧ code = blockCode then do
      let (length, rest) ← Bytes.readNat 8 bytes
      if length ≤ rest.length then readOpcodesUpTo count length rest else none
    else do
      let (opcode, rest) ← readOpcode (code :: bytes)
      let used := bytes.length + 1 - rest.length
      if left = 0 then return opcode :: (← readOpcodesUpTo count 0 rest)
      else if used ≤ left then return opcode :: (← readOpcodesUpTo count (left - used) rest)
      else none

def readOpcodes (bytes : Bytes) : Option (List Opcode) := readOpcodesUpTo bytes.length 0 bytes

/-- Bytes that are read as instructions, the first `left` of them in an open block. -/
def Reads (left : Nat) (bytes : Bytes) (opcodes : List Opcode) : Prop :=
  ∀ count, bytes.length ≤ count → readOpcodesUpTo count left bytes = some opcodes

variable {opcode : Opcode} {ops later : List Opcode} {left : Nat} {bytes rest : Bytes}

def bytesOf (ops : List Opcode) : Bytes := ops.flatMap Opcode.bytes

@[simp] theorem bytesOf_nil : bytesOf [] = [] := rfl

@[simp] theorem bytesOf_cons : bytesOf (opcode :: ops) = opcode.bytes ++ bytesOf ops := rfl

@[simp] theorem bytesOf_append : bytesOf (ops ++ later) = bytesOf ops ++ bytesOf later := by
  simp [bytesOf]

theorem reads_nil : Reads 0 [] [] := by
  intro count _
  cases count <;> rfl

/-- An instruction has a code, and no instruction has that of a block. -/
theorem exists_code (fits : opcode.Fits) :
    ∃ code operand, opcode.bytes = code :: operand ∧ code ≠ blockCode := by
  have read := @readOpcode_bytes [] opcode fits
  rw [List.append_nil] at read
  cases written : opcode.bytes with
  | nil =>
    rw [written] at read
    cases read
  | cons code operand =>
    refine ⟨code, operand, rfl, ?_⟩
    rintro rfl
    rw [written] at read
    cases read

theorem reads_inside (fits : opcode.Fits) (more : Reads left rest ops) :
    Reads (opcode.bytes.length + left) (opcode.bytes ++ rest) (opcode :: ops) := by
  intro count enough
  obtain ⟨code, operand, written, _⟩ := exists_code fits
  have read := @readOpcode_bytes rest opcode fits
  rw [written, List.cons_append] at read enough ⊢
  cases count with
  | zero => simp at enough
  | succ count =>
    have later := more count (by simp at enough; omega)
    have used : (operand ++ rest).length + 1 - rest.length = operand.length + 1 := by
      rw [List.length_append]
      omega
    have last : operand.length + 1 + left - (operand.length + 1) = left := by omega
    rw [readOpcodesUpTo, List.length_cons, if_neg (by omega), read]
    simp only [Option.bind_eq_bind, Option.bind_some, used]
    rw [if_neg (by omega), if_pos (by omega), last, later]
    rfl

theorem reads_outside (fits : opcode.Fits) (more : Reads 0 rest ops) :
    Reads 0 (opcode.bytes ++ rest) (opcode :: ops) := by
  intro count enough
  obtain ⟨code, operand, written, other⟩ := exists_code fits
  have read := @readOpcode_bytes rest opcode fits
  rw [written, List.cons_append] at read enough ⊢
  cases count with
  | zero => simp at enough
  | succ count =>
    have later := more count (by simp at enough; omega)
    rw [readOpcodesUpTo, if_neg (fun block => other block.2), read]
    simp only [Option.bind_eq_bind, Option.bind_some, if_true, later]
    rfl

theorem reads_header (more : Reads left rest ops) (inside : left ≤ rest.length)
    (short : left < 256 ^ 8) :
    Reads 0 (blockCode :: (Bytes.littleEndian 8 left ++ rest)) ops := by
  intro count enough
  cases count with
  | zero => simp at enough
  | succ count =>
    have later := more count (by simp at enough; omega)
    rw [readOpcodesUpTo, if_pos ⟨rfl, rfl⟩, Bytes.readNat_append short]
    simp only [Option.bind_eq_bind, Option.bind_some, if_pos inside, later]

theorem reads_bytesOf_outside (fits : ∀ opcode ∈ ops, opcode.Fits) (more : Reads 0 rest later) :
    Reads 0 (bytesOf ops ++ rest) (ops ++ later) := by
  induction ops with
  | nil => exact more
  | cons opcode ops ih =>
    rw [bytesOf_cons, List.append_assoc]
    exact reads_outside (fits _ (by simp)) (ih fun other member => fits other (by simp [member]))

theorem reads_bytesOf_inside (fits : ∀ opcode ∈ ops, opcode.Fits) (more : Reads 0 rest later) :
    Reads (bytesOf ops).length (bytesOf ops ++ rest)
      (ops ++ later) := by
  induction ops with
  | nil => exact more
  | cons opcode ops ih =>
    rw [bytesOf_cons, List.append_assoc, List.length_append]
    exact reads_inside (fits _ (by simp)) (ih fun other member => fits other (by simp [member]))

theorem reads_block (fits : ∀ opcode ∈ ops, opcode.Fits)
    (short : (bytesOf ops).length < 256 ^ 8) (more : Reads 0 rest later) :
    Reads 0 (Frames.block (bytesOf ops).length (bytesOf ops) ++
      rest) (ops ++ later) := by
  rw [Frames.block]
  split
  · exact reads_bytesOf_outside fits more
  · have inside := reads_header (reads_bytesOf_inside fits more) (by simp) short
    rw [List.append_assoc]
    exact inside

theorem opcodes_append (first second : List Token) :
    opcodes (first ++ second) = opcodes first ++ opcodes second := by
  simp [opcodes]

theorem opcodes_cons (token : Token) (tokens : List Token) :
    opcodes (token :: tokens) = opcodes [token] ++ opcodes tokens :=
  opcodes_append [token] tokens

theorem unframed_eq (tokens : List Token) :
    unframed tokens = bytesOf (opcodes tokens) := by
  induction tokens with
  | nil => rfl
  | cons token tokens ih =>
    cases token with
    | object => exact ih
    | op opcode => exact congrArg (opcode.bytes ++ ·) ih

namespace Frames

/-- Instructions written so far: `done` in finished blocks, `pending` in the open one. -/
structure Holds (f : Frames) (done pending : List Opcode) : Prop where
  finished : ∀ rest later, Reads 0 rest later →
    Reads 0 (f.finished.reverse.flatten ++ rest) (done ++ later)
  pieces : f.pieces.reverse.flatten = bytesOf pending
  size : f.size = (bytesOf pending).length

theorem holds_empty : Holds empty [] [] where
  finished := fun _ _ more => more
  pieces := rfl
  size := rfl

variable {f : Frames} {done pending : List Opcode}

theorem Holds.close (holds : Holds f done pending) (fits : ∀ opcode ∈ pending, opcode.Fits)
    (short : (bytesOf pending).length < 256 ^ 8) :
    Holds f.close (done ++ pending) [] where
  finished := by
    intro rest later more
    have block := holds.finished _ _ (reads_block fits short more)
    simpa [Frames.close, holds.pieces, holds.size, List.append_assoc] using block
  pieces := rfl
  size := rfl

theorem Holds.add (holds : Holds f done pending) (token : Token)
    (fits : ∀ opcode ∈ pending ++ opcodes [token], opcode.Fits)
    (short : (bytesOf (pending ++ opcodes [token])).length < 256 ^ 8) :
    ∃ done' pending', Holds (f.add token) done' pending' ∧
      done' ++ pending' = done ++ pending ++ opcodes [token] := by
  rw [bytesOf_append, List.length_append] at short
  have closed := holds.close (fun opcode member => fits opcode (List.mem_append_left _ member))
    (by omega)
  cases token with
  | object =>
    have none : opcodes [.object] = [] := rfl
    simp only [Frames.add, none, List.append_nil]
    split
    · exact ⟨done ++ pending, [], closed, List.append_nil _⟩
    · exact ⟨done, pending, holds, rfl⟩
  | op opcode =>
    have one : opcodes [.op opcode] = [opcode] := rfl
    rw [one] at fits ⊢
    simp only [Frames.add]
    split
    · -- the text stands between blocks, so the open one is finished before it
      have own := fits opcode (List.mem_append_right _ (List.mem_singleton_self opcode))
      refine ⟨done ++ pending ++ [opcode], [], ?_, List.append_nil _⟩
      constructor
      · intro rest later more
        have large := closed.finished _ _ (reads_outside own more)
        simpa [List.append_assoc] using large
      · exact closed.pieces
      · exact closed.size
    · refine ⟨done, pending ++ [opcode], ?_, (List.append_assoc _ _ _).symm⟩
      constructor
      · exact holds.finished
      · simp [holds.pieces]
      · simp [holds.size]

theorem Holds.foldl (holds : Holds f done pending) (tokens : List Token)
    (fits : ∀ opcode ∈ done ++ pending ++ opcodes tokens, opcode.Fits)
    (short : (bytesOf (done ++ pending ++ opcodes tokens)).length < 256 ^ 8) :
    ∃ done' pending', Holds (tokens.foldl Frames.add f) done' pending' ∧
      done' ++ pending' = done ++ pending ++ opcodes tokens := by
  induction tokens generalizing f done pending with
  | nil => exact ⟨done, pending, holds, (List.append_nil _).symm⟩
  | cons token tokens ih =>
    rw [opcodes_cons token tokens, ← List.append_assoc] at fits short ⊢
    have own : ∀ opcode ∈ pending ++ opcodes [token], opcode.Fits := by
      intro opcode member
      apply fits
      rw [List.append_assoc done]
      exact List.mem_append_left _ (List.mem_append_right _ member)
    obtain ⟨done', pending', step, same⟩ := holds.add token own (by simp at short ⊢; omega)
    rw [← same] at fits short ⊢
    exact ih step fits short

end Frames

theorem reads_framed {tokens : List Token} (fits : ∀ opcode ∈ opcodes tokens, opcode.Fits)
    (short : (unframed tokens).length < 256 ^ 8) : Reads 0 (framed tokens) (opcodes tokens) := by
  rw [unframed_eq] at short
  obtain ⟨done, pending, holds, same⟩ := Frames.holds_empty.foldl tokens fits short
  rw [List.nil_append, List.nil_append] at same
  rw [← same] at fits short ⊢
  have closed := holds.close (fun other member => fits other (by simp [member]))
    (by simp at short; omega)
  have read := closed.finished [] [] reads_nil
  rwa [List.append_nil, List.append_nil] at read

namespace Frames

/-- The bytes of all instructions, and of the headers of finished blocks. -/
def weight (f : Frames) : Nat := f.finished.reverse.flatten.length + f.pieces.reverse.flatten.length

theorem weight_le_close (f : Frames) : f.weight ≤ f.close.weight := by
  have content : f.pieces.reverse.flatten.length ≤
      (block f.size f.pieces.reverse.flatten).length := by
    rw [block]
    split
    · exact Nat.le_refl _
    · simp only [List.length_append, List.length_cons]
      omega
  simp only [weight, close, List.reverse_cons, List.flatten_append, List.length_append]
  simp only [List.flatten_cons, List.flatten_nil, List.append_nil, List.reverse_nil,
    List.length_nil]
  omega

theorem weight_add (f : Frames) (token : Token) :
    f.weight + (bytesOf (opcodes [token])).length ≤ (f.add token).weight := by
  have closed := f.weight_le_close
  cases token with
  | object =>
    simp only [add, opcodes]
    split
    · exact closed
    · exact Nat.le_refl _
  | op opcode =>
    simp only [add]
    split
    · simp [weight, opcodes, bytesOf] at closed ⊢
      omega
    · simp [weight, opcodes, bytesOf]
      omega

theorem weight_foldl (f : Frames) (tokens : List Token) :
    f.weight + (bytesOf (opcodes tokens)).length ≤ (tokens.foldl add f).weight := by
  induction tokens generalizing f with
  | nil => exact Nat.le_refl _
  | cons token tokens ih =>
    have first := f.weight_add token
    have others := ih (f.add token)
    rw [opcodes_cons token tokens, bytesOf_append, List.length_append, List.foldl_cons]
    omega

end Frames

/-- Blocks only add to the bytes of instructions. -/
theorem length_unframed_le (tokens : List Token) :
    (unframed tokens).length ≤ (framed tokens).length := by
  have grown := Frames.empty.weight_foldl tokens
  have closed := (tokens.foldl Frames.add .empty).weight_le_close
  have none : Frames.empty.weight = 0 := rfl
  have last : (tokens.foldl Frames.add .empty).close.weight = (framed tokens).length :=
    Nat.add_zero _
  rw [unframed_eq]
  omega

theorem length_bytesOf_le_dump (p : Protocol) (rs : List Record) :
    (bytesOf (opcodes (records p rs))).length ≤ (dump p rs).length := by
  have blocks := length_unframed_le (records p rs ++ [.op .stop])
  have graph : (bytesOf (opcodes (records p rs))).length ≤
      (unframed (records p rs ++ [.op .stop])).length := by
    rw [unframed_eq, opcodes_append, bytesOf_append, List.length_append]
    exact Nat.le_add_right _ _
  simp only [dump]
  split
  · rw [List.length_append]
    omega
  · split
    · rw [List.length_append]
      omega
    · exact graph

theorem reads_unframed {tokens : List Token} (fits : ∀ opcode ∈ opcodes tokens, opcode.Fits) :
    Reads 0 (unframed tokens) (opcodes tokens) := by
  have read := reads_bytesOf_outside fits reads_nil
  rwa [List.append_nil, List.append_nil, ← unframed_eq] at read

/-- The instruction before a graph: its protocol, from protocol 2 on. -/
def header (p : Protocol) : List Opcode := if 2 ≤ p.val then [.proto p.val] else []

theorem readOpcodes_dump {p : Protocol} {rs : List Record}
    (fits : ∀ opcode ∈ opcodes (records p rs), opcode.Fits) (short : (dump p rs).length < 256 ^ 8) :
    readOpcodes (dump p rs) = some (header p ++ (opcodes (records p rs) ++ [.stop])) := by
  have all : ∀ opcode ∈ opcodes (records p rs ++ [.op .stop]), opcode.Fits := by
    intro opcode member
    rw [opcodes_append] at member
    rcases List.mem_append.mp member with graph | last
    · exact fits opcode graph
    · rw [List.mem_singleton.mp last]
      trivial
  have version : (Opcode.proto p.val).Fits := Nat.lt_trans p.isLt (by decide)
  have stopped : opcodes (records p rs) ++ [.stop] = opcodes (records p rs ++ [.op .stop]) :=
    (opcodes_append _ [.op .stop]).symm
  rw [stopped]
  suffices read : Reads 0 (dump p rs) (header p ++ opcodes (records p rs ++ [.op .stop])) from
    read _ (Nat.le_refl _)
  simp only [dump, header] at short ⊢
  split
  · next framing =>
    rw [if_pos framing, List.length_append] at short
    have graph := length_unframed_le (records p rs ++ [.op .stop])
    rw [if_pos (by omega)]
    exact reads_outside version (reads_framed all (by omega))
  · split
    · exact reads_outside version (reads_unframed all)
    · exact reads_unframed all

end Rollup.Pickle
