import Rollup.Batch.Plan
import Rollup.Format.Csv
import Rollup.Format.Json
import Rollup.Format.Pickle.Encode
import Rollup.Format.Protobuf.Encode
import Rollup.Format.Raw

/-!
Writing a batch in a format asked for by name. Only JSON shows the consolidated view; the other
formats give the samples as they are and leave every series as it is.
-/

namespace Rollup

structure Config where
  /-- The zone of the times in comma-separated lines. -/
  zone : Text := "UTC"
  pickleProtocol : Int := 2

inductive Document where
  | text (s : List Char)
  | binary (bytes : Bytes)

namespace Format

/-- Writes a batch as it stands. -/
def write [Runtime] (format : Format) (config : Config) (batch : Batch) (store : Store) :
    Except Fault Document × Store :=
  let series := batch.series store
  match format with
  | csv => ((Csv.encode config.zone series).map .text, store)
  | json =>
    let (outcome, after) := Json.encode batch store
    (outcome.map fun result => .text result.1, after)
  | pickle => ((Pickle.encode config.pickleProtocol series).map .binary, store)
  | protobuf => ((Protobuf.encode series).map .binary, store)
  | raw => ((Raw.encode series).map .text, store)

end Format

/-- Writes a batch in the format of a name: plans it if a budget of points is given, binds the
reducers of all its series, then writes it. Reports the series whose reducer is unknown. -/
def Batch.encode [Runtime] (name : Text) (budget : Option Int) (config : Config) (batch : Batch)
    (store : Store) : Except Fault (Document × List UnknownReducer) × Store :=
  match Format.ofName? name with
  | none => (.error (.unknownFormat name), store)
  | some format =>
    let planned : Except Fault Unit × Store :=
      match budget with
      | none => (.ok (), store)
      | some budget => batch.consolidate budget store
    match planned with
    | (.error fault, store) => (.error fault, store)
    | (.ok (), store) =>
      let (unknowns, store) := batch.resolve .standard store
      let (outcome, store) := format.write config batch store
      (outcome.map fun document => (document, unknowns), store)

end Rollup
