import Rollup.Format.Pickle.Frame
import Rollup.Groups
import Rollup.Series.Basic

/-!
Object graphs as instructions: a list with one dictionary for each series. Texts, lists and
dictionaries are numbered in a memo when they are first written, and a text that occurs again as the
same object is fetched from there.
-/

namespace Rollup.Pickle

/-- The versions of the instruction set. -/
abbrev Protocol := Fin 6

/-- The protocol of a number; a negative one asks for the latest. -/
def Protocol.ofInt (n : Int) : Except Fault Protocol :=
  if !Time.fitsWord n then .error .wordTooLarge
  else if n < 0 then .ok 5
  else if fits : n.toNat < 6 then .ok ⟨n.toNat, fits⟩
  else .error (.protocolUnknown n)

/-- A text as an object. Equal texts may be one object or several. -/
structure TextObject where
  text : Text
  label : Nat
  deriving DecidableEq

/-- What the graph says of one series; a sample that is missing is nothing. -/
structure Record where
  name : TextObject
  pathExpression : TextObject
  consolidation : TextObject
  start : Int
  stop : Int
  step : Int
  xFilesFactor : Sample
  values : List (Option Sample)
  deriving DecidableEq

def Record.ofSeries (label : Nat → Nat) (s : Series) : Record :=
  { name := ⟨s.name, label 0⟩
    pathExpression := ⟨s.pathExpression, label 1⟩
    consolidation := ⟨s.consolidation, label 2⟩
    start := s.start
    stop := s.stop
    step := s.step
    xFilesFactor := s.xFilesFactor
    values := s.values.map fun x => if x.isMissing then none else some x }

/-- The keys of a record, in order. -/
def keys : List Text :=
  ["name", "pathExpression", "consolidationFunc", "start", "end", "step", "xFilesFactor", "values"]

/-- The objects written so far: how many, and the numbers of the texts among them. -/
structure Memo where
  size : Nat
  texts : List (TextObject × Nat)
  deriving DecidableEq

namespace Memo

def empty : Memo := ⟨0, []⟩

def find? (memo : Memo) (o : TextObject) : Option Nat := (memo.texts.find? (·.1 == o)).map (·.2)

def addText (memo : Memo) (o : TextObject) : Memo := ⟨memo.size + 1, (o, memo.size) :: memo.texts⟩

def addContainer (memo : Memo) : Memo := { memo with size := memo.size + 1 }

end Memo

variable (p : Protocol)

/-- Numbers the object on top of the stack. -/
def put (index : Nat) : Opcode :=
  if 4 ≤ p.val then .memoize
  else if p.val = 0 then .putText index
  else if index < 256 then .put8 index
  else .put32 index

def get (index : Nat) : Opcode :=
  if p.val = 0 then .getText index else if index < 256 then .get8 index else .get32 index

/-- The bytes that a two's complement integer needs. -/
def longWidth (n : Int) : Nat :=
  let m := (if n < 0 then -n - 1 else n).toNat
  (if m = 0 then 0 else m.log2 + 1) / 8 + 1

def integer (n : Int) : Opcode :=
  if -(2 ^ 31) ≤ n ∧ n < 2 ^ 31 then
    if p.val = 0 then .intText n
    else if 0 ≤ n ∧ n < 2 ^ 8 then .int8 n.toNat
    else if 0 ≤ n ∧ n < 2 ^ 16 then .int16 n.toNat
    else .int32 n
  else if 2 ≤ p.val then .long (longWidth n) n
  else .longText n

def float (x : Sample) : Opcode := if p.val = 0 then .floatText x else .float x

def unicode (s : Text) : Opcode :=
  if p.val = 0 then .unicodeText s
  else if 4 ≤ p.val ∧ (Bytes.utf8 s).length < 256 then .shortUnicode s
  else .unicode s

/-- An object written by one instruction. -/
def atom (opcode : Opcode) : List Token := [.object, .op opcode]

/-- A text: fetched if the object was written before, else written and numbered. -/
def text (o : TextObject) (memo : Memo) : List Token × Memo :=
  match memo.find? o with
  | some index => (atom (get p index), memo)
  | none => (atom (unicode p o.text) ++ [.op (put p memo.size)], memo.addText o)

def value : Option Sample → List Token
  | none => atom .none
  | some x => atom (float p x)

/-- The instructions that make and number an empty list. -/
def openList (memo : Memo) : List Token × Memo :=
  let make : List Token := if p.val = 0 then [.op .mark, .op .list] else [.op .emptyList]
  (.object :: make ++ [.op (put p memo.size)], memo.addContainer)

/-- The instructions that make and number an empty dictionary. -/
def openDict (memo : Memo) : List Token × Memo :=
  let make : List Token := if p.val = 0 then [.op .mark, .op .dict] else [.op .emptyDict]
  (.object :: make ++ [.op (put p memo.size)], memo.addContainer)

/-- The items added to a list by one instruction. -/
def batchSize : Nat := 1000

/-- Adds written items to a list: one by one in protocol 0 and if there is only one, else in
batches. -/
def addItems (items : List (List Token)) : List Token :=
  if p.val = 0 ∨ items.length = 1 then items.flatMap fun item => item ++ [.op .append]
  else (groups batchSize items).flatMap fun batch =>
    .op .mark :: batch.flatten ++ [.op .appends]

/-- Adds written pairs of key and value to a dictionary. -/
def addEntries (entries : List (List Token)) : List Token :=
  if p.val = 0 then entries.flatMap fun entry => entry ++ [.op .setItem]
  else .op .mark :: entries.flatten ++ [.op .setItems]

/-- A list of samples. -/
def samples (xs : List (Option Sample)) (memo : Memo) : List Token × Memo :=
  let (opening, memo) := openList p memo
  (opening ++ addItems p (xs.map (value p)), memo)

/-- What stands under a key of a record. -/
inductive Item where
  | text (o : TextObject)
  | integer (n : Int)
  | float (x : Sample)
  | samples (xs : List (Option Sample))

def item : Item → Memo → List Token × Memo
  | .text o, memo => text p o memo
  | .integer n, memo => (atom (integer p n), memo)
  | .float x, memo => (atom (float p x), memo)
  | .samples xs, memo => samples p xs memo

/-- The values of a record, in the order of the keys. -/
def Record.items (r : Record) : List Item :=
  [.text r.name, .text r.pathExpression, .text r.consolidation, .integer r.start, .integer r.stop,
   .integer r.step, .float r.xFilesFactor, .samples r.values]

/-- All keys of one text are one object. -/
def entry (key : Text) (i : Item) (memo : Memo) : List Token × Memo :=
  let (keyTokens, memo) := text p ⟨key, 0⟩ memo
  let (valueTokens, memo) := item p i memo
  (keyTokens ++ valueTokens, memo)

/-- Writes objects one after another, each under the memo that the earlier ones leave. -/
def inTurn {α : Type} (write : α → Memo → List Token × Memo) :
    List α → Memo → List (List Token) × Memo
  | [], memo => ([], memo)
  | x :: xs, memo =>
    let (tokens, memo) := write x memo
    let (others, memo) := inTurn write xs memo
    (tokens :: others, memo)

def record (r : Record) (memo : Memo) : List Token × Memo :=
  let (opening, memo) := openDict p memo
  let (entries, memo) := inTurn (fun pair => entry p pair.1 pair.2) (keys.zip r.items) memo
  (opening ++ addEntries p entries, memo)

/-- A list of records. -/
def records (rs : List Record) : List Token :=
  let (opening, memo) := openList p .empty
  let (items, _) := inTurn (record p) rs memo
  opening ++ addItems p items

/-- The bytes of a graph: the version from protocol 2 on, the instructions, and a stop. -/
def dump (rs : List Record) : Bytes :=
  let tokens := records p rs ++ [.op .stop]
  if 4 ≤ p.val then (Opcode.proto p.val).bytes ++ framed tokens
  else if 2 ≤ p.val then (Opcode.proto p.val).bytes ++ unframed tokens
  else unframed tokens

/-- The count of bytes that the bits of an integer fill, whatever its sign, one bit left over. -/
def magnitudeWidth (n : Int) : Nat := (if n = 0 then 0 else n.natAbs.log2 + 1) / 8 + 1

variable [Runtime]

/-- Why an instruction cannot be written. Before protocol 4 no text has a length of 64 bits. -/
def excess (p : Protocol) : Opcode → Option Fault
  | .put32 index | .get32 index => if index < 2 ^ 32 then none else some .memoTooLarge
  | .longText n => (digitExcess? n).map .tooManyDigits
  | .long _ n => if magnitudeWidth n < 2 ^ 31 then none else some .integerTooLarge
  | .unicode s =>
    if 4 ≤ p.val ∨ (Bytes.utf8 s).length < 2 ^ 32 then none else some .textTooLarge
  | _ => none

/-- The records of the series of a batch, whose texts are objects by their places. -/
def recordsOf (series : List Series) : List Record :=
  series.zipIdx.map fun (s, place) => .ofSeries (Runtime.label place) s

/-- The bytes of a graph, unless an instruction or the whole is too large. -/
def encode (protocol : Int) (series : List Series) : Except Fault Bytes := do
  let p ← Protocol.ofInt protocol
  let rs := recordsOf series
  match (opcodes (records p rs)).findSome? (excess p) with
  | some fault => .error fault
  | none =>
    let bytes := dump p rs
    Fault.require (bytes.length < 2 ^ 63) .documentTooLarge
    return bytes

end Rollup.Pickle
