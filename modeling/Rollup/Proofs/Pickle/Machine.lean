import Rollup.Format.Pickle.Opcode

/-!
The stack machine that rebuilds an object graph. Lists and dictionaries stand on a heap, where they
can be changed after they are numbered in the memo; everywhere else they are held by their places.
-/

namespace Rollup.Pickle

/-- What the machine works on. -/
inductive Value where
  | none
  | integer (n : Int)
  | float (x : Sample)
  | text (s : Text)
  /-- A list or dictionary, by its place on the heap. -/
  | ref (place : Nat)
  deriving DecidableEq

inductive Container where
  | list (items : List Value)
  /-- Entries in the order in which their keys were first set. -/
  | dict (entries : List (Text × Value))
  deriving DecidableEq

abbrev Heap := List Container

namespace Container

/-- Adds items at the end of a list. -/
def extend : Container → List Value → Option Container
  | list items, more => some (.list (items ++ more))
  | dict _, _ => Option.none

/-- A key that is there keeps its place. -/
def setEntry (entries : List (Text × Value)) (key : Text) (value : Value) :
    List (Text × Value) :=
  if entries.any (·.1 == key) then
    entries.map fun entry => if entry.1 = key then (key, value) else entry
  else entries ++ [(key, value)]

/-- Sets entries of a dictionary, given as keys and values in turn. -/
def assign : Container → List Value → Option Container
  | dict entries, [] => some (dict entries)
  | dict entries, .text key :: value :: more => assign (dict (setEntry entries key value)) more
  | _, _ => Option.none

end Container

structure Machine where
  /-- The latest value first. -/
  stack : List Value
  /-- The stacks set aside at marks, the latest first. -/
  marks : List (List Value)
  /-- Values under their numbers, each number once. -/
  memo : List (Nat × Value)
  heap : Heap

namespace Machine

def start : Machine := ⟨[], [], [], []⟩

def push (m : Machine) (v : Value) : Machine := { m with stack := v :: m.stack }

def pop (m : Machine) : Option (Value × Machine) :=
  match m.stack with
  | [] => none
  | v :: stack => some (v, { m with stack })

/-- Takes what was pushed since the last mark, in order, and goes back to the stack before it. -/
def popMark (m : Machine) : Option (List Value × Machine) :=
  match m.marks with
  | [] => none
  | stack :: marks => some (m.stack.reverse, { m with stack, marks })

/-- Puts a new container on the heap. -/
def allocate (m : Machine) (c : Container) : Machine :=
  { m with stack := .ref m.heap.length :: m.stack, heap := m.heap ++ [c] }

/-- Changes the container on top of the stack. -/
def change (m : Machine) (f : Container → Option Container) : Option Machine :=
  match m.stack with
  | .ref place :: _ => do
    let c ← m.heap[place]?
    return { m with heap := m.heap.set place (← f c) }
  | _ => none

/-- Numbers the value on top of the stack. -/
def store (m : Machine) (index : Nat) : Option Machine :=
  m.stack.head?.map fun v =>
    { m with memo := (index, v) :: m.memo.filter fun entry => entry.1 != index }

def fetch (m : Machine) (index : Nat) : Option Machine :=
  (m.memo.find? fun entry => entry.1 == index).map fun entry => m.push entry.2

def step (m : Machine) : Opcode → Option Machine
  | .proto version => if version ≤ 5 then some m else none
  | .stop => none
  | .mark => some { m with stack := [], marks := m.stack :: m.marks }
  | .none => some (m.push .none)
  | .intText n => some (m.push (.integer n))
  | .longText n => some (m.push (.integer n))
  | .int8 n => some (m.push (.integer n))
  | .int16 n => some (m.push (.integer n))
  | .int32 n => some (m.push (.integer n))
  | .long _ n => some (m.push (.integer n))
  | .floatText x => some (m.push (.float x))
  | .float x => some (m.push (.float x))
  | .unicodeText s => some (m.push (.text s))
  | .unicode s => some (m.push (.text s))
  | .shortUnicode s => some (m.push (.text s))
  | .emptyList => some (m.allocate (.list []))
  | .emptyDict => some (m.allocate (.dict []))
  | .list => m.popMark.map fun (values, m) => m.allocate (.list values)
  | .dict => do
    let (values, m) ← m.popMark
    return m.allocate (← (Container.dict []).assign values)
  | .append => do
    let (v, m) ← m.pop
    m.change (·.extend [v])
  | .appends => do
    let (values, m) ← m.popMark
    m.change (·.extend values)
  | .setItem => do
    let (v, m) ← m.pop
    let (key, m) ← m.pop
    m.change (·.assign [key, v])
  | .setItems => do
    let (values, m) ← m.popMark
    m.change (·.assign values)
  | .putText index => m.store index
  | .put8 index => m.store index
  | .put32 index => m.store index
  | .memoize => m.store m.memo.length
  | .getText index => m.fetch index
  | .get8 index => m.fetch index
  | .get32 index => m.fetch index

/-- Runs instructions up to a stop, which is the last one. The graph is then on top of the stack. -/
def run : List Opcode → Machine → Option (Value × Heap)
  | [], _ => none
  | [.stop], m => m.stack.head?.map fun v => (v, m.heap)
  | opcode :: opcodes, m => (m.step opcode).bind (run opcodes)

/-- Runs instructions none of which is a stop. -/
def exec (opcodes : List Opcode) (m : Machine) : Option Machine := opcodes.foldlM step m

@[simp] theorem exec_nil (m : Machine) : exec [] m = some m := rfl

@[simp] theorem exec_cons (opcode : Opcode) (opcodes : List Opcode) (m : Machine) :
    exec (opcode :: opcodes) m = (m.step opcode).bind (exec opcodes) := rfl

theorem exec_append (first second : List Opcode) (m : Machine) :
    exec (first ++ second) m = (exec first m).bind (exec second) := by
  simp only [exec, List.foldlM_append]
  rfl

theorem run_stop (opcodes : List Opcode) (m : Machine) :
    run (opcodes ++ [.stop]) m =
      (exec opcodes m).bind fun m => m.stack.head?.map fun v => (v, m.heap) := by
  induction opcodes generalizing m with
  | nil => rfl
  | cons opcode opcodes ih =>
    have more : opcodes ++ [.stop] ≠ [] := by simp
    rw [List.cons_append, run]
    · rw [exec_cons, Option.bind_assoc]
      congr 1
      funext m
      exact ih m
    · intro _ none
      exact absurd none more

end Machine

end Rollup.Pickle
