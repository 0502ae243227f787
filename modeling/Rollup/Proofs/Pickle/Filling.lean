import Rollup.Proofs.Pickle.Writing

/-!
Filling lists and dictionaries with items that are pushed in turn: one after another, or behind a
mark and in batches. Main statements: a list ends up with all items, a dictionary with all entries,
in order.
-/

namespace Rollup.Pickle

/-! What lists and dictionaries become -/

theorem flatten_singletons (values : List Value) : (values.map fun v => [v]).flatten = values := by
  rw [← List.flatMap_def, List.flatMap_singleton']

theorem foldlM_extend (values xs : List Value) :
    (values.map fun v => [v]).foldlM Container.extend (.list xs) =
      some (.list (xs ++ values)) := by
  induction values generalizing xs with
  | nil => simp
  | cons v values ih => simpa [Container.extend] using ih (xs ++ [v])

/-- A key and the value under it, as they are pushed. -/
def chunk (entry : Text × Value) : List Value := [.text entry.1, entry.2]

/-- Entries under new keys go to the end. -/
theorem foldl_setEntry {entries added : List (Text × Value)}
    (distinct : ((entries ++ added).map (·.1)).Nodup) :
    added.foldl (fun entries entry => Container.setEntry entries entry.1 entry.2) entries =
      entries ++ added := by
  induction added generalizing entries with
  | nil => simp
  | cons entry added ih =>
    have fresh : entries.any (·.1 == entry.1) = false := by
      rw [List.map_append, List.nodup_append] at distinct
      rw [List.any_eq_false]
      intro old member
      simpa using distinct.2.2 _ (List.mem_map_of_mem member) entry.1 (by simp)
    have now : Container.setEntry entries entry.1 entry.2 = entries ++ [entry] := by
      rw [Container.setEntry, fresh]
      rfl
    rw [List.foldl_cons, now, ih (by simpa using distinct), List.append_assoc,
      List.singleton_append]

theorem assign_flatten (entries added : List (Text × Value)) :
    (Container.dict entries).assign (added.map chunk).flatten =
      some (.dict (added.foldl
        (fun entries entry => Container.setEntry entries entry.1 entry.2) entries)) := by
  induction added generalizing entries with
  | nil => rfl
  | cons entry added ih => exact ih (Container.setEntry entries entry.1 entry.2)

theorem foldlM_assign (entries added : List (Text × Value)) :
    (added.map chunk).foldlM Container.assign (.dict entries) =
      some (.dict (added.foldl
        (fun entries entry => Container.setEntry entries entry.1 entry.2) entries)) := by
  induction added generalizing entries with
  | nil => rfl
  | cons entry added ih => exact ih (Container.setEntry entries entry.1 entry.2)

/-! Items in turn -/

variable [Runtime] {p : Protocol} {before after : Memo} {place : Nat}

/-- Items that push values in turn, a chunk of them each. -/
inductive PushesAll (p : Protocol) :
    List (List Token) → Memo → Memo → Nat → List (List Value) → Heap → Prop
  | nil {memo : Memo} {place : Nat} : PushesAll p [] memo memo place [] []
  | cons {item : List Token} {items : List (List Token)} {before between after : Memo} {place : Nat}
      {chunk : List Value} {chunks : List (List Value)} {new later : Heap} :
      Pushes p item before between place chunk new →
      PushesAll p items between after (place + new.length) chunks later →
      PushesAll p (item :: items) before after place (chunk :: chunks) (new ++ later)

variable {items others : List (List Token)} {chunks : List (List Value)} {values : List Value}
  {new later : Heap} {c c' : Container}

theorem PushesAll.flatten (all : PushesAll p items before after place chunks new) :
    Pushes p items.flatten before after place chunks.flatten new := by
  induction all with
  | nil => exact pushes_nil _ _
  | cons first _ ih => exact first.append ih

theorem PushesAll.split (all : PushesAll p (items ++ others) before after place chunks new) :
    ∃ between front back earlier later, chunks = front ++ back ∧ new = earlier ++ later ∧
      PushesAll p items before between place front earlier ∧
      PushesAll p others between after (place + earlier.length) back later := by
  induction items generalizing before place chunks new with
  | nil => exact ⟨before, [], chunks, [], new, rfl, rfl, .nil, all⟩
  | cons item items ih =>
    cases all with
    | @cons _ _ _ between _ _ chunk chunks own new first rest =>
      obtain ⟨middle, front, back, earlier, later, rfl, rfl, left, right⟩ := ih rest
      refine ⟨middle, chunk :: front, back, own ++ earlier, later, rfl, ?_, .cons first left, ?_⟩
      · rw [List.append_assoc]
      · rwa [List.length_append, ← Nat.add_assoc]

theorem fills_nil (memo : Memo) (place : Nat) (c : Container) :
    Fills p [] memo memo place c c [] where
  regular := by simp [opcodes]
  exec := by
    intro stack marks table heap i same _ found
    have unchanged : heap.set i c = heap := by
      obtain ⟨inside, rfl⟩ := List.getElem?_eq_some_iff.mp found
      exact List.set_getElem_self inside
    exact ⟨table, same, by simp [opcodes, unchanged]⟩

/-- Each item is followed by an instruction that adds its chunk. -/
theorem PushesAll.fills {one : Opcode} {grow : Container → List Value → Option Container}
    (all : PushesAll p items before after place chunks new) (regular : Regular p one)
    (step : ∀ chunk ∈ chunks, ∀ i stack marks table heap,
      Machine.step ⟨chunk.reverse ++ .ref i :: stack, marks, table, heap⟩ one =
        Machine.change ⟨.ref i :: stack, marks, table, heap⟩ (grow · chunk))
    (grown : chunks.foldlM grow c = some c') :
    Fills p (items.flatMap fun item => item ++ [.op one]) before after place c c' new := by
  induction all generalizing c with
  | nil =>
    cases grown
    exact fills_nil _ _ _
  | @cons _ _ _ _ _ _ chunk chunks _ _ first _ ih =>
    rw [List.foldlM_cons] at grown
    obtain ⟨middle, now, rest⟩ := Option.bind_eq_some_iff.mp grown
    have own := first.fills regular (step chunk (by simp)) now
    exact own.append (ih (fun other member => step other (by simp [member])) rest)

/-! Lists -/

theorem PushesAll.fills_batches {batches : List (List (List Token))} (xs : List Value)
    (all : PushesAll p batches.flatten before after place (values.map fun v => [v]) new) :
    Fills p (batches.flatMap fun batch => .op .mark :: batch.flatten ++ [.op .appends])
      before after place (.list xs) (.list (xs ++ values)) new := by
  induction batches generalizing before place values new xs with
  | nil =>
    cases values with
    | nil =>
      cases all
      rw [List.append_nil]
      exact fills_nil _ _ _
    | cons v values => cases all
  | cons batch batches ih =>
    rw [List.flatten_cons] at all
    obtain ⟨between, front, back, earlier, later, cut, rfl, left, right⟩ := all.split
    obtain ⟨first, rest, rfl, rfl, rfl⟩ := List.map_eq_append_iff.mp cut
    have pushed := left.flatten
    rw [flatten_singletons] at pushed
    have regular : Regular p .appends := fun _ _ => trivial
    have step (i : Nat) (stack : List Value) (marks : List (List Value))
        (table : List (Nat × Value)) (heap : Heap) :
        Machine.step ⟨first.reverse, (.ref i :: stack) :: marks, table, heap⟩ .appends =
          Machine.change ⟨.ref i :: stack, marks, table, heap⟩ (·.extend first) := by
      simp [Machine.step, Machine.popMark]
    have grown : Container.extend (.list xs) first = some (.list (xs ++ first)) := rfl
    have own := pushed.fills_marked regular step grown
    have others := ih (xs ++ first) right
    rw [List.append_assoc] at others
    exact own.append others

theorem PushesAll.addItems (xs : List Value)
    (all : PushesAll p items before after place (values.map fun v => [v]) new) :
    Fills p (Pickle.addItems p items) before after place (.list xs) (.list (xs ++ values)) new := by
  rw [Pickle.addItems]
  split
  · have regular : Regular p .append := fun _ _ => trivial
    refine all.fills regular ?_ (foldlM_extend values xs)
    intro chunk member i stack marks table heap
    obtain ⟨v, _, rfl⟩ := List.mem_map.mp member
    rfl
  · apply PushesAll.fills_batches
    rwa [flatten_groups]

/-! Dictionaries -/

theorem PushesAll.addEntries {added : List (Text × Value)}
    (all : PushesAll p items before after place (added.map chunk) new)
    (distinct : (added.map (·.1)).Nodup) :
    Fills p (Pickle.addEntries p items) before after place (.dict []) (.dict added) new := by
  have whole := @foldl_setEntry [] added distinct
  rw [Pickle.addEntries]
  split
  · have regular : Regular p .setItem := fun _ _ => trivial
    refine all.fills regular ?_ ((foldlM_assign [] added).trans (by rw [whole]; rfl))
    intro values member i stack marks table heap
    obtain ⟨entry, _, rfl⟩ := List.mem_map.mp member
    rfl
  · have regular : Regular p .setItems := fun _ _ => trivial
    have step (i : Nat) (stack : List Value) (marks : List (List Value))
        (table : List (Nat × Value)) (heap : Heap) :
        Machine.step ⟨(added.map chunk).flatten.reverse, (.ref i :: stack) :: marks, table, heap⟩
          .setItems =
            Machine.change ⟨.ref i :: stack, marks, table, heap⟩
              (·.assign (added.map chunk).flatten) := by
      simp [Machine.step, Machine.popMark]
    have grown := assign_flatten [] added
    rw [whole, List.nil_append] at grown
    exact all.flatten.fills_marked regular step grown

end Rollup.Pickle
