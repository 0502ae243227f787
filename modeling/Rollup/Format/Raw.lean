import Rollup.Series.Basic
import Rollup.Sample.Text

/-!
Raw lines, one for each series: `name,start,stop,step|values`. The name is escaped so that a line
can be cut at its first bar.
-/

namespace Rollup.Raw

/-- The characters that would break a line, and the escape sign itself. -/
def escapePoint (p : CodePoint) : Text :=
  if p = '%' then "%25"
  else if p = '|' then "%7C"
  else if p = '\n' then "%0A"
  else if p = '\r' then "%0D"
  else [p]

def escape (name : Text) : Text := name.flatMap escapePoint

/-- What stands for a missing sample. -/
def missingToken : String := "None"

def value (x : Sample) : List Char := if x.isMissing then missingToken.toList else x.text

/-- Texts with commas between them. -/
def commas (texts : List (List Char)) : List Char := [','].intercalate texts

variable [Runtime]

def line (s : Series) : Except Fault Text := do
  let start ← integerText s.start
  let stop ← integerText s.stop
  let step ← integerText s.step
  return escape s.name ++ .ofChars (',' :: start ++ ',' :: stop ++ ',' :: step ++
    '|' :: commas (s.values.map value) ++ ['\n'])

/-- All lines, if they are made of characters. -/
def encode (series : List Series) : Except Fault (List Char) := do
  Fault.characters (← series.mapM line).flatten

end Rollup.Raw
