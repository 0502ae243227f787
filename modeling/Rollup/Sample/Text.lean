import Rollup.Decimal.Layout

/-!
The texts of samples: the shortest digits that read back as the same sample, written without an
exponent, or with one outside a middle range.
-/

namespace Rollup

def sign (negative : Bool) : List Char := if negative then ['-'] else []

namespace Sample

/-- Positional, as in series text formats. -/
def text : Sample → List Char
  | missing => "NaN".toList
  | infinite negative => if negative then "-Inf".toList else "+Inf".toList
  | finite x => sign x.negative ++ x.shortest.positional

/-- With a fraction or an exponent, so that no number reads as an integer. -/
def balancedText : Sample → List Char
  | missing => "nan".toList
  | infinite negative => sign negative ++ "inf".toList
  | finite x => sign x.negative ++ x.shortest.balanced

end Sample

end Rollup
