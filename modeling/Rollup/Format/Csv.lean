import Rollup.Series.Basic
import Rollup.Sample.Text
import Rollup.Time.Label

/-!
Comma-separated lines, one for each sample: the quoted name, the local time, and the value, which
is empty for a missing sample.
-/

namespace Rollup.Csv

/-- In quotes; a quote inside is written twice. -/
def quoted (s : Text) : Text :=
  let quote : CodePoint := '\x22'
  quote :: s.flatMap (fun p => if p = quote then [quote, quote] else [p]) ++ [quote]

def value (x : Sample) : List Char := if x.isMissing then [] else x.text

/-- What stands for the label of a missing time. -/
def missingLabel : List Char := "nan".toList

def row (name : Text) (label : Option (List Char)) (x : Sample) : Text :=
  quoted name ++ .ofChars (',' :: label.getD missingLabel ++ ',' :: value x ++ ['\n'])

variable [Runtime]

/-- The lines of one series. There are fewer samples than addresses, whatever the labels count. -/
def lines (zone : Text) (s : Series) : Except Fault Text := do
  Fault.require (s.values.length < Time.addressLimit) .countTooLarge
  let labels ← Time.labels s.start s.step s.values.length zone
  return (labels.zipWith (row s.name) s.values).flatten

/-- All lines, if they are made of characters. -/
def encode (zone : Text) (series : List Series) : Except Fault (List Char) := do
  Fault.characters (← series.mapM (lines zone)).flatten

end Rollup.Csv
