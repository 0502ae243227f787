import Rollup.Series.View

/-!
Batches: lists of slots, each empty or naming a series of a store. A series named by two slots is
one series, so a change through one slot shows through the other.
-/

namespace Rollup

/-- Series under their positions. -/
abbrev Store := List Series

abbrev Batch := List (Option Nat)

namespace Batch

/-- The positions named by the slots that are not empty, in order. -/
def present (store : Store) (batch : Batch) : List Nat :=
  (batch.filterMap id).filter (· < store.length)

/-- The series of the slots that are not empty, in order, repeats included. -/
def series (store : Store) (batch : Batch) : List Series :=
  (batch.present store).filterMap (store[·]?)

/-- The earliest start and the latest end of some series; zeros if there are none. -/
def timeRange : List Series → Int × Int
  | [] => (0, 0)
  | s :: rest =>
    (rest.foldl (fun start r => min start r.start) s.start,
      rest.foldl (fun stop r => max stop r.stop) s.stop)

/-- Binds the reducers of grouped series, one after another. A series without one does not keep
the others from theirs; each failure is reported. -/
def resolveAll (registry : Registry) : List Nat → Store → List UnknownReducer × Store
  | [], store => ([], store)
  | i :: rest, store =>
    match store[i]? with
    | none => resolveAll registry rest store
    | some s =>
      if s.grouping ≤ 1 then resolveAll registry rest store
      else
        match s.resolve registry with
        | (.ok _, after) => resolveAll registry rest (store.set i after)
        | (.error unknown, after) =>
          let (unknowns, last) := resolveAll registry rest (store.set i after)
          (unknown :: unknowns, last)

def resolve (registry : Registry) (batch : Batch) (store : Store) :
    List UnknownReducer × Store :=
  resolveAll registry (batch.present store) store

end Batch

end Rollup
