import Rollup.Format.Name
import Rollup.Text.Literal

/-!
Why an operation fails, and the text that says so.
-/

namespace Rollup

/-- A series asks for a reducer that no registry entry provides. -/
structure UnknownReducer where
  series : Text
  func : Text
  deriving DecidableEq, Repr

/-- What is wrong with the structure of a series. -/
inductive Defect where
  | step
  | grouping
  | order
  | bounds
  | tags
  deriving DecidableEq, Repr

/-- Why a field cannot be encoded. -/
inductive FieldDefect where
  /-- It does not fit a signed 64-bit word. -/
  | tooLarge (n : Int)
  /-- It does not fit a word and has more digits than can be written. -/
  | tooManyDigits (limit : Nat)
  /-- It has no UTF-8 form. -/
  | notScalar (s : Text)
  deriving DecidableEq, Repr

/-- The subject of a fault. -/
inductive Topic where
  | general
  | series
  | consolidation
  | reducer
  | encoding
  | format
  deriving DecidableEq, Repr

inductive Fault where
  /-- A stated requirement does not hold. -/
  | required (topic : Topic) (message : Text)
  | stepNotPositive (step : Int)
  | groupingNegative (count : Int)
  | defective (series : Text) (defect : Defect)
  | budgetNotPositive (points : Int)
  | unknownReducer (unknown : UnknownReducer)
  | field (defect : FieldDefect)
  | unknownFormat (format : Text)
  /-- An integer has more digits than can be written. -/
  | tooManyDigits (limit : Nat)
  /-- A document has a code point that is no character. -/
  | notScalar
  /-- An integer does not fit a signed 64-bit word. -/
  | wordTooLarge
  /-- A quotient of counts exceeds every finite sample. -/
  | quotientTooLarge
  | stepZero
  /-- A time lies outside the calendar's range. -/
  | timeOutOfRange
  /-- The turns of summer time are unknown in a year of universal time. -/
  | yearOutOfRange
  /-- Clocks with summer time would show a year past the last one whose turns are known. -/
  | localYearOutOfRange
  /-- More instants than a signed 64-bit word can count or address. -/
  | countTooLarge
  /-- No zone has this name. -/
  | zone (name : Text) (reason : String)
  | protocolUnknown (protocol : Int)
  /-- An object's number in a memo has more than 32 bits. -/
  | memoTooLarge
  /-- An integer has more bytes than a signed 32-bit word can count. -/
  | integerTooLarge
  /-- A text has more bytes than a 32-bit word can count. -/
  | textTooLarge
  /-- A document has more bytes than a signed 64-bit word can count. -/
  | documentTooLarge
  /-- A reducer refused its group, for a reason of its own. -/
  | refused (reason : String)
  /-- A position of a store holds no series. -/
  | noSeries (position : Nat)
  deriving DecidableEq, Repr

def UnknownReducer.message (u : UnknownReducer) : String :=
  "Unknown consolidation function " ++ Text.literal u.func ++ " for series " ++
    Text.literal u.series

def Defect.message : Defect → String
  | step => "step must be positive."
  | grouping => "values_per_point must be non-negative."
  | order => "stop_time precedes start_time."
  | bounds => "stop_time does not match start + step * len(values)."
  | tags => "tags must map str to str."

def tooManyDigitsMessage (limit : Nat) : String :=
  "Exceeds the limit (" ++ toString limit ++ " digits) for integer string conversion; " ++
    "use sys.set_int_max_str_digits() to increase the limit"

/-- Where the first halves of pairs stand that make a text have no UTF-8 form. -/
def notScalarMessage (s : Text) : String :=
  let start := (s.takeWhile CodePoint.isScalar).length
  let halves := (s.drop start).takeWhile fun p => !p.isScalar
  let place :=
    match halves with
    | [half] => "character '" ++ String.ofList (Text.literalPoint '\x27' half) ++
        "' in position " ++ toString start
    | _ => "characters in position " ++ toString start ++ "-" ++
        toString (start + halves.length - 1)
  "'utf-8' codec can't encode " ++ place ++ ": surrogates not allowed"

def FieldDefect.message : FieldDefect → String
  | tooLarge n => "Value out of range: " ++ toString n
  | tooManyDigits limit => tooManyDigitsMessage limit
  | notScalar s => notScalarMessage s

namespace Fault

def message : Fault → Text
  | required _ message => message
  | stepNotPositive step => "step must be positive, got " ++ toString step
  | groupingNegative count => "values_per_point must be non-negative, got " ++ toString count
  | defective series defect => "Series " ++ Text.literal series ++ ": " ++ defect.message
  | budgetNotPositive points => "max_points must be positive, got " ++ toString points
  | unknownReducer u => u.message
  | field defect => "Cannot encode protobuf response: " ++ defect.message
  | unknownFormat format =>
    "Unknown format " ++ Text.literal format ++
      ". Expected one of: " ++ ", ".intercalate (Format.all.map Format.name) ++ "."
  | tooManyDigits limit => tooManyDigitsMessage limit
  | notScalar => "document has half of a surrogate pair on its own"
  | wordTooLarge => "integer does not fit 64 bits"
  | quotientTooLarge => "quotient of counts is too large"
  | stepZero => "step is zero"
  | timeOutOfRange => "time is outside the calendar"
  | yearOutOfRange => "turns of summer time are unknown in this year"
  | localYearOutOfRange => "local clocks are past the last year"
  | countTooLarge => "too many instants"
  | zone name reason => Text.literal name ++ ": " ++ reason
  | protocolUnknown protocol => "unknown pickle protocol " ++ toString protocol
  | memoTooLarge => "too many objects to number"
  | integerTooLarge => "integer is too large to write"
  | textTooLarge => "text is too large to write in this protocol"
  | documentTooLarge => "not enough memory for the document"
  | refused reason => reason
  | noSeries position => "no series at position " ++ toString position

/-- Checks a requirement. -/
def require (holds : Bool) (fault : Fault) : Except Fault Unit :=
  if holds then .ok () else .error fault

/-- The characters of a document, which must hold nothing else. -/
def characters (document : Text) : Except Fault (List Char) :=
  match document.chars? with
  | some chars => .ok chars
  | none => .error .notScalar

theorem characters_eq_ok_iff {document : Text} {chars : List Char} :
    characters document = .ok chars ↔ document = .ofChars chars := by
  rw [← Text.chars?_eq_some_iff, characters]
  cases document.chars? <;> simp

theorem require_eq_ok_iff {holds : Bool} {fault : Fault} {done : Unit} :
    require holds fault = .ok done ↔ holds = true := by
  cases holds <;> simp [require]

theorem bind_eq_ok_iff {α β : Type} {first : Except Fault α} {next : α → Except Fault β} {y : β} :
    (first >>= next) = .ok y ↔ ∃ x, first = .ok x ∧ next x = .ok y := by
  cases first <;> simp [bind, Except.bind]

end Fault

end Rollup
