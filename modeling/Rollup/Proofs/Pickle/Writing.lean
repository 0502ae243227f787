import Mathlib.Data.List.Forall2
import Rollup.Proofs.Pickle.Blocks
import Rollup.Proofs.Pickle.Machine

/-!
What written instructions do when the machine runs them: they push values, or they fill the
container on top of the stack, and the machine's memo goes on holding the objects that were
numbered. Main statement: instructions one after another do so one after another.
-/

namespace Rollup.Pickle

/-- The machine's memo holds as many values as objects were numbered, and each text among them. -/
structure Memo.Matches (memo : Memo) (table : List (Nat × Value)) : Prop where
  size : table.length = memo.size
  below : ∀ entry ∈ table, entry.1 < memo.size
  texts : ∀ o index, memo.find? o = some index →
    table.find? (fun entry => entry.1 == index) = some (index, .text o.text)

namespace Memo

variable {memo : Memo} {table : List (Nat × Value)}

theorem matches_empty : empty.Matches [] where
  size := rfl
  below := by simp
  texts := by simp [find?, empty]

/-- A number that was given before is not the next one. -/
theorem Matches.find?_cons (same : memo.Matches table) {o : TextObject} {index : Nat}
    (given : memo.find? o = some index) (v : Value) :
    ((memo.size, v) :: table).find? (fun entry => entry.1 == index) =
      some (index, .text o.text) := by
  have found := same.texts o index given
  have earlier := same.below _ (List.mem_of_find?_eq_some found)
  have other : (memo.size == index) = false := by
    simp only at earlier
    simp only [beq_eq_false_iff_ne]
    omega
  rw [List.find?_cons, other]
  exact found

theorem Matches.addContainer (same : memo.Matches table) (v : Value) :
    memo.addContainer.Matches ((memo.size, v) :: table) where
  size := by simp [Memo.addContainer, same.size]
  below := by
    intro entry member
    rcases List.mem_cons.mp member with rfl | earlier
    · exact Nat.lt_succ_self _
    · exact Nat.lt_succ_of_lt (same.below entry earlier)
  texts := fun _ _ given => same.find?_cons given v

theorem Matches.addText (same : memo.Matches table) (o : TextObject) :
    (memo.addText o).Matches ((memo.size, .text o.text) :: table) where
  size := by simp [Memo.addText, same.size]
  below := (same.addContainer (.text o.text)).below
  texts := by
    intro q index given
    by_cases new : o = q
    · subst new
      have last : memo.size = index := by simpa [find?, Memo.addText] using given
      simp [last]
    · have earlier : memo.find? q = some index := by simpa [find?, Memo.addText, new] using given
      exact same.find?_cons earlier _

end Memo

variable {c c' : Container}

theorem getElem?_append_of_eq_some {heap : Heap} {i : Nat} (found : heap[i]? = some c)
    (new : Heap) : (heap ++ new)[i]? = some c := by
  rw [List.getElem?_append_left (List.getElem?_eq_some_iff.mp found).1, found]

theorem set_append_set {heap : Heap} {i : Nat} (inside : i < heap.length) (c c' : Container)
    (new later : Heap) :
    (heap.set i c ++ new).set i c' ++ later = heap.set i c' ++ (new ++ later) := by
  rw [List.set_append_left _ _ (by simpa using inside), List.set_set, List.append_assoc]

/-- What an instruction does with the values on a container, or since a mark above it. -/
theorem change_ref {stack : List Value} {marks : List (List Value)} {table : List (Nat × Value)}
    {heap : Heap} {i : Nat} {grow : Container → Option Container} (found : heap[i]? = some c)
    (grown : grow c = some c') :
    Machine.change ⟨.ref i :: stack, marks, table, heap⟩ grow =
      some ⟨.ref i :: stack, marks, table, heap.set i c'⟩ := by
  simp [Machine.change, found, grown]

variable [Runtime] {p : Protocol}

/-- An instruction that fits unless it or the document is too large. -/
def Regular (p : Protocol) (opcode : Opcode) : Prop :=
  excess p opcode = none → opcode.bytes.length < 2 ^ 63 → opcode.Fits

/-- Instructions that push values, with new containers from a place of the heap on. -/
structure Pushes (p : Protocol) (tokens : List Token) (before after : Memo) (place : Nat)
    (values : List Value) (new : Heap) : Prop where
  regular : ∀ opcode ∈ opcodes tokens, Regular p opcode
  exec : ∀ stack marks table (heap : Heap), before.Matches table → heap.length = place →
    ∃ table', after.Matches table' ∧
      Machine.exec (opcodes tokens) ⟨stack, marks, table, heap⟩ =
        some ⟨values.reverse ++ stack, marks, table', heap ++ new⟩

/-- Instructions that make one container of another, on top of the stack. -/
structure Fills (p : Protocol) (tokens : List Token) (before after : Memo) (place : Nat)
    (c c' : Container) (new : Heap) : Prop where
  regular : ∀ opcode ∈ opcodes tokens, Regular p opcode
  exec : ∀ stack marks table (heap : Heap) i, before.Matches table → heap.length = place →
    heap[i]? = some c → ∃ table', after.Matches table' ∧
      Machine.exec (opcodes tokens) ⟨.ref i :: stack, marks, table, heap⟩ =
        some ⟨.ref i :: stack, marks, table', heap.set i c' ++ new⟩

variable {first second tokens : List Token} {before between after : Memo} {place : Nat}
  {values more : List Value} {new later : Heap} {c'' : Container}

theorem regular_append (left : ∀ opcode ∈ opcodes first, Regular p opcode)
    (right : ∀ opcode ∈ opcodes second, Regular p opcode) :
    ∀ opcode ∈ opcodes (first ++ second), Regular p opcode := by
  intro opcode member
  rw [opcodes_append] at member
  rcases List.mem_append.mp member with inside | inside
  · exact left opcode inside
  · exact right opcode inside

theorem pushes_nil (memo : Memo) (place : Nat) : Pushes p [] memo memo place [] [] where
  regular := by simp [opcodes]
  exec := by
    intro stack marks table heap same _
    exact ⟨table, same, by simp [opcodes]⟩

theorem Pushes.append (left : Pushes p first before between place values new)
    (right : Pushes p second between after (place + new.length) more later) :
    Pushes p (first ++ second) before after place (values ++ more) (new ++ later) where
  regular := regular_append left.regular right.regular
  exec := by
    intro stack marks table heap same size
    obtain ⟨table', same', run⟩ := left.exec stack marks table heap same size
    obtain ⟨table'', same'', run'⟩ :=
      right.exec (values.reverse ++ stack) marks table' (heap ++ new) same' (by simp [size])
    refine ⟨table'', same'', ?_⟩
    rw [opcodes_append, Machine.exec_append, run, Option.bind_some, run']
    simp [List.append_assoc]

theorem Fills.append (left : Fills p first before between place c c' new)
    (right : Fills p second between after (place + new.length) c' c'' later) :
    Fills p (first ++ second) before after place c c'' (new ++ later) where
  regular := regular_append left.regular right.regular
  exec := by
    intro stack marks table heap i same size found
    have inside : i < heap.length := (List.getElem?_eq_some_iff.mp found).1
    obtain ⟨table', same', run⟩ := left.exec stack marks table heap i same size found
    obtain ⟨table'', same'', run'⟩ := right.exec stack marks table' (heap.set i c' ++ new) i same'
      (by simp [size]) (getElem?_append_of_eq_some (List.getElem?_set_self inside) new)
    refine ⟨table'', same'', ?_⟩
    rw [opcodes_append, Machine.exec_append, run, Option.bind_some, run', set_append_set inside]

/-- A new container that is filled next. -/
theorem Pushes.fill (made : Pushes p first before between place [.ref place] [c])
    (filled : Fills p second between after (place + 1) c c' new) :
    Pushes p (first ++ second) before after place [.ref place] (c' :: new) where
  regular := regular_append made.regular filled.regular
  exec := by
    intro stack marks table heap same size
    obtain ⟨table', same', run⟩ := made.exec stack marks table heap same size
    obtain ⟨table'', same'', run'⟩ := filled.exec stack marks table' (heap ++ [c]) place same'
      (by simp [size]) (by simp [← size])
    refine ⟨table'', same'', ?_⟩
    rw [opcodes_append, Machine.exec_append, run, Option.bind_some]
    simp only [List.reverse_singleton, List.singleton_append]
    rw [run', ← size]
    simp

/-- Values and the instruction that adds them. -/
theorem Pushes.fills {one : Opcode} {grow : Container → Option Container}
    (pushed : Pushes p tokens before after place values new) (regular : Regular p one)
    (step : ∀ i stack marks table heap,
      Machine.step ⟨values.reverse ++ .ref i :: stack, marks, table, heap⟩ one =
        Machine.change ⟨.ref i :: stack, marks, table, heap⟩ grow) (grown : grow c = some c') :
    Fills p (tokens ++ [.op one]) before after place c c' new where
  regular := regular_append pushed.regular (by simpa [opcodes] using regular)
  exec := by
    intro stack marks table heap i same size found
    have inside : i < heap.length := (List.getElem?_eq_some_iff.mp found).1
    obtain ⟨table', same', run⟩ := pushed.exec (.ref i :: stack) marks table heap same size
    have last : opcodes [.op one] = [one] := rfl
    refine ⟨table', same', ?_⟩
    rw [opcodes_append, Machine.exec_append, run, Option.bind_some, last, Machine.exec_cons, step,
      change_ref (getElem?_append_of_eq_some found new) grown, List.set_append_left _ _ inside]
    rfl

/-- Values behind a mark and the instruction that adds them. -/
theorem Pushes.fills_marked {many : Opcode} {grow : Container → Option Container}
    (pushed : Pushes p tokens before after place values new) (regular : Regular p many)
    (step : ∀ i stack marks table heap,
      Machine.step ⟨values.reverse, (.ref i :: stack) :: marks, table, heap⟩ many =
        Machine.change ⟨.ref i :: stack, marks, table, heap⟩ grow) (grown : grow c = some c') :
    Fills p (.op .mark :: tokens ++ [.op many]) before after place c c' new where
  regular := by
    have mark : ∀ opcode ∈ opcodes [.op .mark], Regular p opcode := by
      simp [opcodes, Regular, Opcode.Fits]
    have last : ∀ opcode ∈ opcodes [.op many], Regular p opcode := by
      simpa [opcodes] using regular
    exact regular_append (regular_append mark pushed.regular) last
  exec := by
    intro stack marks table heap i same size found
    have inside : i < heap.length := (List.getElem?_eq_some_iff.mp found).1
    obtain ⟨table', same', run⟩ := pushed.exec [] ((.ref i :: stack) :: marks) table heap same size
    have mark : opcodes (.op .mark :: tokens) = .mark :: opcodes tokens := rfl
    have last : opcodes [.op many] = [many] := rfl
    have marked : Machine.step ⟨.ref i :: stack, marks, table, heap⟩ .mark =
        some ⟨[], (.ref i :: stack) :: marks, table, heap⟩ := rfl
    refine ⟨table', same', ?_⟩
    rw [opcodes_append, mark, Machine.exec_append, Machine.exec_cons, marked, Option.bind_some, run,
      Option.bind_some, List.append_nil, last, Machine.exec_cons, step,
      change_ref (getElem?_append_of_eq_some found new) grown, List.set_append_left _ _ inside]
    rfl

end Rollup.Pickle
