import Rollup.Operation
import Rollup.Proofs.Pickle.Objects

/-!
Graphs of a batch, read back. Main statement: whenever a graph is written, under any protocol, the
machine rebuilds from its bytes one dictionary for each series.
-/

namespace Rollup.Pickle

/-- The object of bytes and the heap it stands on. -/
def load (bytes : Bytes) : Option (Value × Heap) := do Machine.run (← readOpcodes bytes) .start

/-- A dictionary of a series: a sample that is missing is nothing, every other is itself. -/
def IsDict (heap : Heap) (s : Series) (v : Value) : Prop :=
  ∃ dict list, v = .ref dict ∧
    heap[dict]? = some (.dict [
      (.ofString "name", .text s.name), (.ofString "pathExpression", .text s.pathExpression),
      (.ofString "consolidationFunc", .text s.consolidation), (.ofString "start", .integer s.start),
      (.ofString "end", .integer s.stop), (.ofString "step", .integer s.step),
      (.ofString "xFilesFactor", .float s.xFilesFactor), (.ofString "values", .ref list)]) ∧
    heap[list]? = some (.list (s.values.map fun x => if x.isMissing then .none else .float x))

theorem isEntry_iff {entry : Text × Value} {key : Text} {v : Value} :
    entry.1 = key ∧ entry.2 = v ↔ entry = (key, v) :=
  (@Prod.ext_iff _ _ entry (key, v)).symm

theorem isDict_of_means {label : Nat → Nat} {heap : Heap} {s : Series} {v : Value}
    (means : (Record.ofSeries label s).Means heap v) : IsDict heap s v := by
  obtain ⟨dict, entries, rfl, found, same⟩ := means
  simp only [keys, Record.items, List.zip_cons_cons, List.zip_nil_left, List.forall₂_cons_left_iff,
    List.forall₂_nil_left_iff, Item.Means, isEntry_iff, existsAndEq, true_and, and_true] at same
  obtain ⟨⟨_, _⟩, ⟨rfl, list, rfl, values⟩, rfl⟩ := same
  refine ⟨dict, list, rfl, found, ?_⟩
  have shown : (fun x : Sample => if x.isMissing then Value.none else .float x) =
      Value.ofSample ∘ fun x => if x.isMissing then none else some x := by
    funext x
    simp only [Function.comp_apply]
    split <;> rfl
  rw [values, shown, ← List.map_map]
  rfl

/-- Where the series stand in a batch decides only which equal texts are one object. -/
theorem forall₂_isDict {labels : Nat → Nat → Nat} {heap : Heap} {series : List Series}
    {dicts : List Value}
    (means : List.Forall₂ (Record.Means heap)
      (series.zipIdx.map fun (s, place) => Record.ofSeries (labels place) s) dicts) :
    List.Forall₂ (IsDict heap) series dicts := by
  rw [List.forall₂_map_left_iff] at means
  have each := means.imp fun _ _ => isDict_of_means
  rw [← List.forall₂_map_left_iff (f := Prod.fst), List.zipIdx_map_fst] at each
  exact each

variable {p : Protocol} {rs : List Record}

theorem length_bytes_le {opcode : Opcode} (written : opcode ∈ opcodes (records p rs)) :
    opcode.bytes.length ≤ (dump p rs).length := by
  obtain ⟨front, back, cut⟩ := List.append_of_mem written
  have own : opcode.bytes.length ≤ (bytesOf (opcodes (records p rs))).length := by
    rw [cut, bytesOf_append, bytesOf_cons, List.length_append, List.length_append]
    omega
  exact own.trans (length_bytesOf_le_dump p rs)

@[simp] theorem exec_header (m : Machine) : Machine.exec (header p) m = some m := by
  rw [header]
  split
  · have known : p.val ≤ 5 := Nat.lt_succ_iff.mp p.isLt
    simp [Machine.step, known]
  · rfl

section

variable [Runtime]

theorem fits_of_excess (none : (opcodes (records p rs)).findSome? (excess p) = none)
    (short : (dump p rs).length < 2 ^ 63) : ∀ opcode ∈ opcodes (records p rs), opcode.Fits := by
  intro opcode written
  obtain ⟨_, _, _, pushed, _⟩ := @pushes_records p _ rs
  exact pushed.regular opcode written (List.findSome?_eq_none_iff.mp none opcode written)
    (Nat.lt_of_le_of_lt (length_bytes_le written) short)

/-- The machine rebuilds a graph whose instructions fit. -/
theorem load_dump (fits : ∀ opcode ∈ opcodes (records p rs), opcode.Fits)
    (short : (dump p rs).length < 2 ^ 63) :
    ∃ values new, load (dump p rs) = some (.ref 0, .list values :: new) ∧
      List.Forall₂ (Record.Means (.list values :: new)) rs values := by
  obtain ⟨after, values, new, pushed, meanings⟩ := @pushes_records p _ rs
  obtain ⟨table, _, built⟩ := pushed.exec [] [] [] [] Memo.matches_empty rfl
  refine ⟨values, new, ?_, meanings⟩
  rw [load, readOpcodes_dump fits (by omega), Option.bind_eq_bind, Option.bind_some,
    ← List.append_assoc, Machine.run_stop, Machine.exec_append, exec_header, Option.bind_some,
    Machine.start, built]
  rfl

theorem encode_eq_ok {protocol : Int} {series : List Series} {bytes : Bytes}
    (written : encode protocol series = .ok bytes) :
    ∃ p, bytes = dump p (recordsOf series) ∧
      (opcodes (records p (recordsOf series))).findSome? (excess p) = none ∧
      bytes.length < 2 ^ 63 := by
  rw [encode, Fault.bind_eq_ok_iff] at written
  obtain ⟨p, _, written⟩ := written
  cases large : (opcodes (records p (recordsOf series))).findSome? (excess p) with
  | some fault =>
    simp only [large] at written
    cases written
  | none =>
    simp only [large, Fault.bind_eq_ok_iff, Fault.require_eq_ok_iff, decide_eq_true_eq] at written
    obtain ⟨_, short, written⟩ := written
    cases written
    exact ⟨p, rfl, large, short⟩

/-- Whenever the graph of a batch is written, whatever the protocol, the machine rebuilds from its
bytes a list with a dictionary of each series. No series changes. -/
theorem graph_of_perform {store after : Store} {batch : Batch} {protocol : Int} {answer : Answer}
    (written : store.perform (.pickle batch protocol) = (.ok answer, after)) :
    after = store ∧ ∃ bytes place heap dicts, answer = .document (.binary bytes) [] ∧
      load bytes = some (.ref place, heap) ∧ heap[place]? = some (.list dicts) ∧
      List.Forall₂ (IsDict heap) (batch.series store) dicts := by
  simp only [Store.perform, Store.encoded] at written
  cases made : encode protocol (batch.series store) with
  | error fault =>
    rw [made] at written
    cases written
  | ok bytes =>
    rw [made] at written
    cases written
    obtain ⟨p, rfl, none, short⟩ := encode_eq_ok made
    obtain ⟨dicts, new, loaded, meanings⟩ := load_dump (fits_of_excess none short) short
    refine ⟨rfl, _, 0, _, dicts, rfl, loaded, rfl, ?_⟩
    exact forall₂_isDict meanings

end

/-- One series twice, under a name that is also its function, by the latest instructions. -/
theorem graph_of_perform_repeated :
    ∃ (store after : Store) (answer : Answer) (bytes : Bytes) (place : Nat) (heap : Heap)
        (dicts : List Value),
      store = Store.run [] [.makeTagged "sum" [.ofNat 1, .missing] 60 (-60) []] ∧
      store.perform (.pickle [some 0, none, some 0] (-1)) = (.ok answer, after) ∧
      after = store ∧ answer = .document (.binary bytes) [] ∧
      load bytes = some (.ref place, heap) ∧ heap[place]? = some (.list dicts) ∧
      dicts.length = 2 := by
  let store : Store := Store.run [] [.makeTagged "sum" [.ofNat 1, .missing] 60 (-60) []]
  have two : (Batch.series store [some 0, none, some 0]).length = 2 := by decide +kernel
  have done : (store.perform (.pickle [some 0, none, some 0] (-1))).1.isOk = true := by
    decide +kernel
  rcases written : store.perform (.pickle [some 0, none, some 0] (-1)) with ⟨fault | answer, after⟩
  · rw [written] at done
    cases done
  · obtain ⟨same, bytes, place, heap, dicts, document, loaded, found, each⟩ :=
      graph_of_perform written
    exact ⟨store, after, answer, bytes, place, heap, dicts, rfl, written, same, document, loaded,
      found, by rw [← each.length_eq, two]⟩

end Rollup.Pickle
