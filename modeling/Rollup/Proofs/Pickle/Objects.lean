import Rollup.Proofs.Pickle.Filling

/-!
The instructions of texts, numbers, lists and dictionaries push what they were written for. Main
statement: the instructions of a record push a dictionary that says what the record says.
-/

namespace Rollup.Pickle

variable {p : Protocol} {memo : Memo}

/-! Integers in bytes -/

/-- The bits of a natural number. -/
def bitLength (n : Nat) : Nat := if n = 0 then 0 else n.log2 + 1

theorem lt_two_pow_bitLength (n : Nat) : n < 2 ^ bitLength n := by
  rw [bitLength]
  split
  · omega
  · exact Nat.lt_log2_self

theorem bitLength_mono {m n : Nat} (le : m ≤ n) : bitLength m ≤ bitLength n := by
  rw [bitLength, bitLength]
  split
  · exact Nat.zero_le _
  · next nonzero =>
    rw [if_neg (by omega)]
    have below := Nat.lt_of_le_of_lt le (@Nat.lt_log2_self n)
    have := (Nat.log2_lt nonzero).mpr below
    omega

/-- What a two's complement integer holds below its sign. -/
def magnitude (n : Int) : Nat := (if n < 0 then -n - 1 else n).toNat

theorem longWidth_eq (n : Int) : longWidth n = bitLength (magnitude n) / 8 + 1 := rfl

theorem magnitudeWidth_eq (n : Int) : magnitudeWidth n = bitLength n.natAbs / 8 + 1 := by
  simp only [magnitudeWidth, bitLength, Int.natAbs_eq_zero]

theorem magnitude_le (n : Int) : magnitude n ≤ n.natAbs := by
  rw [magnitude]
  split <;> omega

/-- Of the bits of its bytes an integer leaves one for the sign. -/
theorem longWidth_bounds (n : Int) :
    -(2 ^ (8 * longWidth n - 1)) ≤ n ∧ n < 2 ^ (8 * longWidth n - 1) := by
  have room : bitLength (magnitude n) ≤ 8 * longWidth n - 1 := by
    rw [longWidth_eq]
    omega
  have below := Nat.lt_of_lt_of_le (lt_two_pow_bitLength (magnitude n))
    (Nat.pow_le_pow_right (by decide) room)
  have wide : ((magnitude n : Nat) : Int) < 2 ^ (8 * longWidth n - 1) := by exact_mod_cast below
  rw [magnitude] at wide
  split at wide
  · rw [Int.toNat_of_nonneg (by omega)] at wide
    omega
  · rw [Int.toNat_of_nonneg (by omega)] at wide
    omega

theorem fits_long {n : Int} (small : magnitudeWidth n < 2 ^ 31) :
    (Opcode.long (longWidth n) n).Fits := by
  have few : longWidth n ≤ magnitudeWidth n := by
    have := bitLength_mono (magnitude_le n)
    rw [longWidth_eq, magnitudeWidth_eq]
    omega
  exact ⟨Nat.succ_pos _, by omega, longWidth_bounds n⟩

/-! What is meant -/

/-- A sample in a graph. -/
def Value.ofSample : Option Sample → Value
  | some x => .float x
  | Option.none => .none

/-- What a value on a heap should be for an item of a record. -/
def Item.Means (heap : Heap) : Item → Value → Prop
  | .text o, v => v = .text o.text
  | .integer n, v => v = .integer n
  | .float x, v => v = .float x
  | .samples xs, v => ∃ place, v = .ref place ∧ heap[place]? = some (.list (xs.map .ofSample))

/-- What a value on a heap should be for a record. -/
def Record.Means (heap : Heap) (r : Record) (v : Value) : Prop :=
  ∃ place entries, v = .ref place ∧ heap[place]? = some (.dict entries) ∧
    List.Forall₂ (fun (pair : Text × Item) entry => entry.1 = pair.1 ∧ pair.2.Means heap entry.2)
      (keys.zip r.items) entries

/-- Entries that stand under the keys of a record are entries under different keys. -/
theorem nodup_of_forall₂ {r : Record} {entries : List (Text × Value)}
    {means : Text × Item → Value → Prop}
    (same : List.Forall₂ (fun pair entry => entry.1 = pair.1 ∧ means pair entry.2)
      (keys.zip r.items) entries) : (entries.map (·.1)).Nodup := by
  have firsts : List.Forall₂ (fun key key' => key' = key) ((keys.zip r.items).map (·.1))
      (entries.map (·.1)) := by
    rw [List.forall₂_map_left_iff, List.forall₂_map_right_iff]
    exact same.imp fun _ _ both => both.1
  have all : entries.map (·.1) = keys := by
    rw [← List.forall₂_eq_eq_eq]
    exact firsts.flip
  rw [all]
  decide

theorem record_eq (r : Record) (memo : Memo) :
    record p r memo =
      ((openDict p memo).1 ++ addEntries p (inTurn (fun pair => entry p pair.1 pair.2)
        (keys.zip r.items) (openDict p memo).2).1,
      (inTurn (fun pair => entry p pair.1 pair.2) (keys.zip r.items) (openDict p memo).2).2) := by
  rw [record]

/-! Texts and numbers -/

theorem step_put {table : List (Nat × Value)} (same : memo.Matches table) (v : Value)
    (stack : List Value) (marks : List (List Value)) (heap : Heap) :
    Machine.step ⟨v :: stack, marks, table, heap⟩ (put p memo.size) =
      some ⟨v :: stack, marks, (memo.size, v) :: table, heap⟩ := by
  have kept : table.filter (fun entry => entry.1 != memo.size) = table := by
    rw [List.filter_eq_self]
    intro entry member
    have := same.below entry member
    simp only [bne_iff_ne]
    omega
  have stored : Machine.store ⟨v :: stack, marks, table, heap⟩ memo.size =
      some ⟨v :: stack, marks, (memo.size, v) :: table, heap⟩ := by
    simp [Machine.store, kept]
  simp only [put]
  split
  · simpa [Machine.step, same.size] using stored
  · split
    · exact stored
    · split <;> exact stored

variable [Runtime] {place : Nat} {new : Heap}

theorem regular_put (index : Nat) : Regular p (put p index) := by
  intro small _
  simp only [put] at small ⊢
  split
  · trivial
  · split
    · trivial
    · split
      · assumption
      · next framing text large =>
        rw [if_neg framing, if_neg text, if_neg large] at small
        simpa [excess, Opcode.Fits] using small

theorem regular_get (index : Nat) : Regular p (get p index) := by
  intro small _
  simp only [get] at small ⊢
  split
  · trivial
  · split
    · assumption
    · next text large =>
      rw [if_neg text, if_neg large] at small
      simpa [excess, Opcode.Fits] using small

theorem regular_integer (n : Int) : Regular p (integer p n) := by
  intro small _
  simp only [integer] at small ⊢
  split
  · next word =>
    split
    · trivial
    · split
      · next byte =>
        have fits : n.toNat < 256 := by omega
        exact fits
      · split
        · next byte =>
          have fits : n.toNat < 256 ^ 2 := by omega
          exact fits
        · exact word
  · next large =>
    split
    · next binary =>
      rw [if_neg large, if_pos binary] at small
      exact fits_long (by simpa [excess] using small)
    · trivial

theorem regular_float (x : Sample) : Regular p (float p x) := by
  intro _ _
  rw [float]
  split <;> trivial

theorem regular_unicode (s : Text) : Regular p (unicode p s) := by
  intro _ short
  simp only [unicode] at short ⊢
  split
  · trivial
  · next binary =>
    rw [if_neg binary] at short
    split
    · next few => exact few.2
    · next long =>
      rw [if_neg long, Opcode.bytes, List.length_append] at short
      have fits : (Bytes.utf8 s).length < 256 ^ 8 := by omega
      exact fits

/-- An instruction that pushes one value and changes nothing else. -/
theorem pushes_atom {opcode : Opcode} {v : Value} (regular : Regular p opcode)
    (step : ∀ m, Machine.step m opcode = some (m.push v)) (memo : Memo) (place : Nat) :
    Pushes p (atom opcode) memo memo place [v] [] where
  regular := by simpa [atom, opcodes] using regular
  exec := by
    intro stack marks table heap same _
    have one : opcodes (atom opcode) = [opcode] := rfl
    refine ⟨table, same, ?_⟩
    rw [one, Machine.exec_cons, step]
    simp [Machine.push]

theorem pushes_integer (n : Int) (memo : Memo) (place : Nat) :
    Pushes p (atom (integer p n)) memo memo place [.integer n] [] := by
  apply pushes_atom (regular_integer n)
  intro m
  simp only [integer]
  split
  · split
    · rfl
    · split
      · next inside =>
        have same : ((n.toNat : Nat) : Int) = n := Int.toNat_of_nonneg inside.1
        simp only [Machine.step, same]
      · split
        · next inside =>
          have same : ((n.toNat : Nat) : Int) = n := Int.toNat_of_nonneg inside.1
          simp only [Machine.step, same]
        · rfl
  · split <;> rfl

theorem pushes_float (x : Sample) (memo : Memo) (place : Nat) :
    Pushes p (atom (float p x)) memo memo place [.float x] [] := by
  apply pushes_atom (regular_float x)
  intro m
  rw [float]
  split <;> rfl

theorem pushes_value (x : Option Sample) (memo : Memo) (place : Nat) :
    Pushes p (value p x) memo memo place [.ofSample x] [] := by
  cases x with
  | none =>
    have regular : Regular p .none := fun _ _ => trivial
    exact pushes_atom regular (fun _ => rfl) memo place
  | some x => exact pushes_float x memo place

/-- An instruction that pushes a value, which is then numbered. -/
theorem pushes_numbered {make : List Token} {v : Value} {grown : Memo}
    (pushed : Pushes p make memo memo place [v] new)
    (matched : ∀ table, memo.Matches table → grown.Matches ((memo.size, v) :: table)) :
    Pushes p (make ++ [.op (put p memo.size)]) memo grown place [v] new where
  regular := regular_append pushed.regular (by simpa [opcodes] using regular_put memo.size)
  exec := by
    intro stack marks table heap same size
    obtain ⟨table', same', run⟩ := pushed.exec stack marks table heap same size
    have last : opcodes [.op (put p memo.size)] = [put p memo.size] := rfl
    refine ⟨_, matched table' same', ?_⟩
    rw [opcodes_append, Machine.exec_append, run, Option.bind_some, last, Machine.exec_cons]
    simp only [List.reverse_singleton, List.singleton_append]
    rw [step_put same']
    rfl

theorem pushes_text (o : TextObject) (memo : Memo) (place : Nat) :
    Pushes p (text p o memo).1 memo (text p o memo).2 place [.text o.text] [] := by
  rw [text]
  cases found : memo.find? o with
  | none =>
    have step (m : Machine) : Machine.step m (unicode p o.text) = some (m.push (.text o.text)) := by
      simp only [unicode]
      split
      · rfl
      · split <;> rfl
    exact pushes_numbered (pushes_atom (regular_unicode o.text) step memo place)
      fun _ same => same.addText o
  | some index =>
    constructor
    · simpa [atom, opcodes] using regular_get index
    · intro stack marks table heap same _
      have one : opcodes (atom (get p index)) = [get p index] := rfl
      have fetched : Machine.fetch ⟨stack, marks, table, heap⟩ index =
          some ⟨.text o.text :: stack, marks, table, heap⟩ := by
        simp [Machine.fetch, same.texts o index found, Machine.push]
      refine ⟨table, same, ?_⟩
      rw [one, Machine.exec_cons]
      have step : Machine.step ⟨stack, marks, table, heap⟩ (get p index) =
          some ⟨.text o.text :: stack, marks, table, heap⟩ := by
        simp only [get]
        split
        · exact fetched
        · split <;> exact fetched
      rw [step]
      simp

/-- The instructions of an empty container. -/
theorem pushes_empty {make : List Opcode} {c : Container}
    (regular : ∀ opcode ∈ make, Regular p opcode)
    (step : ∀ m, Machine.exec make m = some (m.allocate c)) (memo : Memo) (place : Nat) :
    Pushes p (.object :: make.map .op) memo memo place [.ref place] [c] := by
  have same : opcodes (.object :: make.map .op) = make := by
    simp [opcodes]
  constructor
  · rwa [same]
  · intro stack marks table heap matched size
    refine ⟨table, matched, ?_⟩
    rw [same, step, ← size]
    rfl

theorem pushes_openList (memo : Memo) (place : Nat) :
    Pushes p (openList p memo).1 memo (openList p memo).2 place [.ref place] [.list []] := by
  have made : Pushes p (.object :: if p.val = 0 then [.op .mark, .op .list] else [.op .emptyList])
      memo memo place [.ref place] [.list []] := by
    split
    · exact @pushes_empty p _ [.mark, .list] _ (by simp [Regular, Opcode.Fits]) (fun _ => rfl) _ _
    · exact @pushes_empty p _ [.emptyList] _ (by simp [Regular, Opcode.Fits]) (fun _ => rfl) _ _
  exact pushes_numbered made fun _ same => same.addContainer _

theorem pushes_openDict (memo : Memo) (place : Nat) :
    Pushes p (openDict p memo).1 memo (openDict p memo).2 place [.ref place] [.dict []] := by
  have made : Pushes p (.object :: if p.val = 0 then [.op .mark, .op .dict] else [.op .emptyDict])
      memo memo place [.ref place] [.dict []] := by
    split
    · exact @pushes_empty p _ [.mark, .dict] _ (by simp [Regular, Opcode.Fits]) (fun _ => rfl) _ _
    · exact @pushes_empty p _ [.emptyDict] _ (by simp [Regular, Opcode.Fits]) (fun _ => rfl) _ _
  exact pushes_numbered made fun _ same => same.addContainer _

theorem pushesAll_values (xs : List (Option Sample)) (memo : Memo) (place : Nat) :
    PushesAll p (xs.map (value p)) memo memo place
      ((xs.map Value.ofSample).map fun v => [v]) [] := by
  induction xs with
  | nil => exact .nil
  | cons x xs ih => exact .cons (pushes_value x memo place) ih

theorem pushes_samples (xs : List (Option Sample)) (memo : Memo) (place : Nat) :
    Pushes p (samples p xs memo).1 memo (samples p xs memo).2 place [.ref place]
      [.list (xs.map .ofSample)] :=
  (pushes_openList memo place).fill ((pushesAll_values xs _ _).addItems [])

/-! Records -/

theorem pushes_item (i : Item) (memo : Memo) (place : Nat) :
    ∃ v new, Pushes p (item p i memo).1 memo (item p i memo).2 place [v] new ∧
      ∀ front back : Heap, front.length = place → i.Means (front ++ new ++ back) v := by
  cases i with
  | text o => exact ⟨_, _, pushes_text o memo place, fun _ _ _ => rfl⟩
  | integer n => exact ⟨_, _, pushes_integer n memo place, fun _ _ _ => rfl⟩
  | float x => exact ⟨_, _, pushes_float x memo place, fun _ _ _ => rfl⟩
  | samples xs =>
    refine ⟨_, _, pushes_samples xs memo place, ?_⟩
    intro front back size
    exact ⟨place, rfl, by simp [← size]⟩

/-- Objects that are written in turn push in turn, whatever stands on the heap around them. -/
theorem pushesAll_inTurn {α β : Type} {write : α → Memo → List Token × Memo}
    {shape : β → List Value} {means : Heap → α → β → Prop}
    (each : ∀ x memo place, ∃ y new,
      Pushes p (write x memo).1 memo (write x memo).2 place (shape y) new ∧
        ∀ front back : Heap, front.length = place → means (front ++ new ++ back) x y)
    (xs : List α) (memo : Memo) (place : Nat) :
    ∃ ys new, PushesAll p (inTurn write xs memo).1 memo (inTurn write xs memo).2 place
      (ys.map shape) new ∧ ∀ front back : Heap, front.length = place →
        List.Forall₂ (means (front ++ new ++ back)) xs ys := by
  induction xs generalizing memo place with
  | nil => exact ⟨[], [], .nil, fun _ _ _ => .nil⟩
  | cons x xs ih =>
    obtain ⟨y, new, first, meaning⟩ := each x memo place
    obtain ⟨ys, later, others, meanings⟩ := ih (write x memo).2 (place + new.length)
    refine ⟨y :: ys, new ++ later, .cons first others, ?_⟩
    intro front back size
    constructor
    · have own := meaning front (later ++ back) size
      simpa [List.append_assoc] using own
    · have rest := meanings (front ++ new) back (by simp [size])
      simpa [List.append_assoc] using rest

theorem pushes_entry (pair : Text × Item) (memo : Memo) (place : Nat) :
    ∃ added new, Pushes p (entry p pair.1 pair.2 memo).1 memo (entry p pair.1 pair.2 memo).2 place
      (chunk added) new ∧ ∀ front back : Heap, front.length = place →
        added.1 = pair.1 ∧ pair.2.Means (front ++ new ++ back) added.2 := by
  obtain ⟨v, new, pushed, meaning⟩ := @pushes_item p _ pair.2 (text p ⟨pair.1, 0⟩ memo).2 place
  exact ⟨(pair.1, v), new, (pushes_text ⟨pair.1, 0⟩ memo place).append pushed,
    fun front back size => ⟨rfl, meaning front back size⟩⟩

theorem pushes_record (r : Record) (memo : Memo) (place : Nat) :
    ∃ v new, Pushes p (record p r memo).1 memo (record p r memo).2 place [v] new ∧
      ∀ front back : Heap, front.length = place → r.Means (front ++ new ++ back) v := by
  obtain ⟨entries, new, all, meanings⟩ :=
    @pushesAll_inTurn p _ _ _ (fun pair => entry p pair.1 pair.2) chunk
      (fun heap pair added => added.1 = pair.1 ∧ pair.2.Means heap added.2) pushes_entry
      (keys.zip r.items) (openDict p memo).2 (place + 1)
  have distinct : (entries.map (·.1)).Nodup :=
    nodup_of_forall₂ (meanings (List.replicate (place + 1) (.list [])) [] (by simp))
  have pushed := (pushes_openDict memo place).fill (all.addEntries distinct)
  refine ⟨.ref place, .dict entries :: new, ?_, ?_⟩
  · simp only [record_eq]
    exact pushed
  · intro front back size
    refine ⟨place, entries, rfl, by simp [← size], ?_⟩
    have own := meanings (front ++ [.dict entries]) back (by simp [size])
    simpa only [List.append_assoc, List.singleton_append] using own

theorem pushes_records (rs : List Record) :
    ∃ after values new, Pushes p (records p rs) .empty after 0 [.ref 0] (.list values :: new) ∧
      List.Forall₂ (Record.Means (.list values :: new)) rs values := by
  obtain ⟨values, new, all, meanings⟩ :=
    @pushesAll_inTurn p _ _ _ (record p) (fun v => [v]) (fun heap r v => r.Means heap v)
      pushes_record rs (openList p .empty).2 1
  refine ⟨_, values, new, (pushes_openList .empty 0).fill (all.addItems []), ?_⟩
  simpa using meanings [.list values] [] rfl

end Rollup.Pickle
