import Rollup.Batch.Basic
import Rollup.Sample.Text

/-!
A document with one entry for each series of a batch: its name, the points of its consolidated
view and its tags. A series whose reducer is unknown has no entry and is reported instead.
-/

namespace Rollup.Json

/-- Four hexadecimal digits after the escape for a character code. -/
def unit16 (n : Nat) : List Char := ['\\', 'u'] ++ Text.hex 4 n

/-- Printable ASCII stays but for quotes and backslashes; for all else stand short escapes or
16-bit units, two of them for characters past the first plane. -/
def escapeChar (c : Char) : List Char :=
  if c = '\x22' || c = '\\' then ['\\', c]
  else if c = '\n' then ['\\', 'n']
  else if c = '\r' then ['\\', 'r']
  else if c = '\t' then ['\\', 't']
  else if c = '\x08' then ['\\', 'b']
  else if c = '\x0c' then ['\\', 'f']
  else if 0x20 ≤ c.toNat ∧ c.toNat < 0x7f then [c]
  else if c.toNat < 0x10000 then unit16 c.toNat
  else
    unit16 (0xd800 + (c.toNat - 0x10000) / 0x400) ++ unit16 (0xdc00 + (c.toNat - 0x10000) % 0x400)

/-- Half of a pair is one 16-bit unit. -/
def escapePoint : CodePoint → List Char
  | .scalar c => escapeChar c
  | .half index => unit16 (CodePoint.half index).toNat

def quoted (s : Text) : List Char := '\x22' :: s.flatMap escapePoint ++ ['\x22']

/-- A number, or null if the sample is missing or infinite. -/
def value (x : Sample) : List Char := if x.isFinite then x.text else "null".toList

/-- A tag value that is a number, on its own. -/
def number : Sample → List Char
  | .missing => "NaN".toList
  | .infinite negative => sign negative ++ "Infinity".toList
  | .finite x => sign x.negative ++ x.shortest.balanced

/-- Blanks follow the separators inside tag values. -/
def tagValue : TagValue → List Char
  | .text s => quoted s
  | .null => "null".toList
  | .flag b => (toString b).toList
  | .integer n => (toString n).toList
  | .number x => number x
  | .items values => '[' :: [',', ' '].intercalate (values.map tagValue) ++ [']']
  | .table entries =>
    '\x7b' :: [',', ' '].intercalate
      (entries.map fun entry => quoted entry.1 ++ [':', ' '] ++ tagValue entry.2) ++
        ['\x7d']
termination_by value => sizeOf value
decreasing_by
  · have smaller := List.sizeOf_lt_of_mem ‹_ ∈ values›
    simp_wf
    omega
  · have smaller := List.sizeOf_lt_of_mem ‹_ ∈ entries›
    cases entry
    simp_all
    omega

/-- What the document says of a series. -/
structure Entry where
  target : Text
  points : List (Sample × Int)
  tags : Tags

namespace Entry

def point (p : Sample × Int) : List Char :=
  '[' :: value p.1 ++ ',' :: (toString p.2).toList ++ [']']

def tag (t : Text × TagValue) : List Char := quoted t.1 ++ ':' :: tagValue t.2

/-- Tags in the order of their keys, by code point. -/
def sortedTags (tags : Tags) : Tags := tags.mergeSort fun a b => a.1 ≤ b.1

def text (e : Entry) : List Char :=
  "\x7b\"target\":".toList ++ quoted e.target ++
    ",\"datapoints\":[".toList ++ [','].intercalate (e.points.map point) ++
    "],\"tags\":\x7b".toList ++ [','].intercalate ((sortedTags e.tags).map tag) ++
    "\x7d\x7d".toList

end Entry

def document (entries : List Entry) : List Char :=
  '[' :: [','].intercalate (entries.map Entry.text) ++ [']']

/-- The entry of a series, or the reason why it is left out. The view is read for the samples and
once more for their times; only the first reading may leave the series out. -/
def entry (s : Series) : Except Fault (Except UnknownReducer Entry) × Series :=
  match s.aggregated with
  | (.error (.unknownReducer unknown), after) => (.ok (.error unknown), after)
  | (.error fault, after) => (.error fault, after)
  | (.ok view, after) =>
    match after.aggregatedTimestamps with
    | (.error fault, last) => (.error fault, last)
    | (.ok times, last) => (.ok (.ok ⟨last.name, view.zip times, last.tags⟩), last)

/-- What a document holds and what it leaves out, each in order. -/
structure Contents where
  entries : List Entry
  unknowns : List UnknownReducer

def Contents.add (first : Except UnknownReducer Entry) (rest : Contents) : Contents :=
  match first with
  | .ok e => { rest with entries := e :: rest.entries }
  | .error unknown => { rest with unknowns := unknown :: rest.unknowns }

/-- The entries of one series after another, up to the first fault. -/
def contents : List Nat → Store → Except Fault Contents × Store
  | [], store => (.ok ⟨[], []⟩, store)
  | i :: rest, store =>
    match store[i]? with
    | none => contents rest store
    | some s =>
      match entry s with
      | (.error fault, after) => (.error fault, store.set i after)
      | (.ok first, after) =>
        let (outcome, last) := contents rest (store.set i after)
        (outcome.map (Contents.add first), last)

/-- The document of a batch, and the reports for the series it leaves out. -/
def encode (batch : Batch) (store : Store) :
    Except Fault (List Char × List UnknownReducer) × Store :=
  let (outcome, after) := contents (batch.present store) store
  (outcome.map fun c => (document c.entries, c.unknowns), after)

end Rollup.Json
