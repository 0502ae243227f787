import Rollup.Text.Lowercase

/-!
The formats a batch can be written in, and the names they are asked for by.
-/

namespace Rollup

inductive Format where
  | csv
  | json
  | pickle
  | protobuf
  | raw
  deriving DecidableEq, Repr

namespace Format

def all : List Format := [csv, json, pickle, protobuf, raw]

def name : Format → String
  | csv => "csv"
  | json => "json"
  | pickle => "pickle"
  | protobuf => "protobuf"
  | raw => "raw"

/-- Further names of formats. -/
def aliases : List (String × Format) := [("protobuf3", protobuf), ("carbonapi_v3_pb", protobuf)]

/-- The format of a name in any case. -/
def ofName? (name : Text) : Option Format :=
  let key := Text.lower name
  match aliases.find? fun entry => (entry.1 : Text) == key with
  | some (_, format) => some format
  | none => all.find? fun format => (format.name : Text) == key

end Format

end Rollup
