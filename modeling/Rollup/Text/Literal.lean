import Rollup.Text.Unprintable

/-!
Text inside a message: in quotes, with escapes for what cannot be shown.
-/

namespace Rollup.Text

def hexDigit (n : Nat) : Char := Nat.digitChar (n % 16)

/-- The lowest `width` hexadecimal digits, lower case. -/
def hex : Nat → Nat → List Char
  | 0, _ => []
  | width + 1, n => hex width (n / 16) ++ [hexDigit n]

/-- A character inside quotes of the given kind. -/
def literalChar (quote c : Char) : List Char :=
  if c = quote || c = '\\' then ['\\', c]
  else if c = '\t' then ['\\', 't']
  else if c = '\n' then ['\\', 'n']
  else if c = '\r' then ['\\', 'r']
  else if isPrintable c then [c]
  else if c.toNat < 0x100 then ['\\', 'x'] ++ hex 2 c.toNat
  else if c.toNat < 0x10000 then ['\\', 'u'] ++ hex 4 c.toNat
  else ['\\', 'U'] ++ hex 8 c.toNat

/-- A code point inside quotes. Half of a pair is shown by its number. -/
def literalPoint (quote : Char) : CodePoint → List Char
  | .scalar c => literalChar quote c
  | .half index => ['\\', 'u'] ++ hex 4 (CodePoint.half index).toNat

/-- Single quotes, unless only they occur in the text. -/
def literal (s : Text) : String :=
  let quote := if s.contains '\x27' && !s.contains '\x22' then '\x22' else '\x27'
  String.ofList (quote :: s.flatMap (literalPoint quote) ++ [quote])

end Rollup.Text
