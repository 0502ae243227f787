import Rollup.Format.Encode

/-!
Operations on a store of series, and runs of them. An operation answers or fails; in both cases
the store it leaves is the one the next operation finds.
-/

namespace Rollup

inductive Operation where
  /-- Makes a series tagged by an extractor from its name. -/
  | make (extract : Text → Mapping) (name : Text) (values : List Sample) (step start : Int)
  | makeTagged (name : Text) (values : List Sample) (step start : Int) (tags : Tags)
  | insert (s : Series)
  | edit (i : Nat) (change : Series.Edit)
  | regroup (i : Nat) (count : Int)
  | resolve (i : Nat) (registry : Registry)
  | aggregate (i : Nat)
  | aggregated (i : Nat)
  | aggregatedStep (i : Nat)
  | timestamps (i : Nat)
  | aggregatedTimestamps (i : Nat)
  | check (i : Nat) (bounds : Bool)
  | consolidate (batch : Batch) (budget : Int)
  | resolveBatch (batch : Batch) (registry : Registry)
  | csv (batch : Batch) (zone : Text)
  | json (batch : Batch)
  | pickle (batch : Batch) (protocol : Int)
  | protobuf (batch : Batch)
  | raw (batch : Batch)
  | encode (batch : Batch) (name : Text) (budget : Option Int) (config : Config)

inductive Answer where
  | done
  /-- A series was added to the store. -/
  | added (s : Series)
  | samples (values : List Sample)
  | step (seconds : Int)
  | times (instants : List Int)
  /-- The outcome of a resolution and how many times it asked the registry. -/
  | resolution (outcome : Except UnknownReducer Reducer) (lookups : Nat)
  | reports (unknowns : List UnknownReducer)
  | document (document : Document) (unknowns : List UnknownReducer)

namespace Store

/-- Adds a series, unless it could not be made. -/
def add (store : Store) : Except Fault Series → Except Fault Answer × Store
  | .ok s => (.ok (.added s), store ++ [s])
  | .error fault => (.error fault, store)

/-- Acts on the series at a position and stores what is left of it. -/
def onSeries (store : Store) (i : Nat) (act : Series → Except Fault Answer × Series) :
    Except Fault Answer × Store :=
  match store[i]? with
  | none => (.error (.noSeries i), store)
  | some s =>
    let (outcome, after) := act s
    (outcome, store.set i after)

/-- Encodes the series of a batch as they are. -/
def encoded (store : Store) (outcome : Except Fault Document) : Except Fault Answer × Store :=
  (outcome.map (Answer.document · []), store)

variable [Runtime]

def perform (store : Store) : Operation → Except Fault Answer × Store
  | .make extract name values step start =>
    store.add (Series.makeExtracting extract name values step start)
  | .makeTagged name values step start tags =>
    store.add (Series.makeTagged name values step start tags)
  | .insert s => store.add (.ok s)
  | .edit i change => store.onSeries i fun s => (.ok .done, s.edit change)
  | .regroup i count => store.onSeries i fun s =>
    match s.regroup count with
    | .ok after => (.ok .done, after)
    | .error fault => (.error fault, s)
  | .resolve i registry => store.onSeries i fun s =>
    let (outcome, after) := s.resolve registry
    (.ok (.resolution outcome (after.lookups - s.lookups)), after)
  | .aggregate i => store.onSeries i fun s =>
    let (outcome, after) := s.aggregate
    (outcome.map .samples, after)
  | .aggregated i => store.onSeries i fun s =>
    let (outcome, after) := s.aggregated
    (outcome.map .samples, after)
  | .aggregatedStep i => store.onSeries i fun s => (.ok (.step s.aggregatedStep), s)
  | .timestamps i => store.onSeries i fun s => (s.timestamps.map .times, s)
  | .aggregatedTimestamps i => store.onSeries i fun s =>
    let (outcome, after) := s.aggregatedTimestamps
    (outcome.map .times, after)
  | .check i bounds => store.onSeries i fun s => ((s.check bounds).map fun _ => .done, s)
  | .consolidate batch budget =>
    let (outcome, after) := batch.consolidate budget store
    (outcome.map fun _ => .done, after)
  | .resolveBatch batch registry =>
    let (unknowns, after) := batch.resolve registry store
    (.ok (.reports unknowns), after)
  | .csv batch zone => store.encoded ((Csv.encode zone (batch.series store)).map .text)
  | .json batch =>
    let (outcome, after) := Json.encode batch store
    (outcome.map fun (text, unknowns) => .document (.text text) unknowns, after)
  | .pickle batch protocol =>
    store.encoded ((Pickle.encode protocol (batch.series store)).map .binary)
  | .protobuf batch => store.encoded ((Protobuf.encode (batch.series store)).map .binary)
  | .raw batch => store.encoded ((Raw.encode (batch.series store)).map .text)
  | .encode batch name budget config =>
    let (outcome, after) := batch.encode name budget config store
    (outcome.map fun (document, unknowns) => .document document unknowns, after)

/-- The store after operations one after another, whether they answer or fail. -/
def run (store : Store) (operations : List Operation) : Store :=
  operations.foldl (fun current operation => (current.perform operation).2) store

end Store

-- Operations on fixed series run in the usual surroundings.
attribute [instance] Runtime.usual

end Rollup
