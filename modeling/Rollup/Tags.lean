import Rollup.Sample.Basic
import Rollup.Text.Basic

/-!
The tags of a series: keys in the order in which they were first set, each with one value.
-/

namespace Rollup

/-- What a caller may put under a tag key. In a sound series every value is text. -/
inductive TagValue where
  | text (s : Text)
  | null
  | flag (b : Bool)
  | integer (n : Int)
  | number (x : Sample)
  | items (values : List TagValue)
  | table (entries : List (Text × TagValue))

def TagValue.isText : TagValue → Bool
  | text _ => true
  | _ => false

abbrev Tags := List (Text × TagValue)

namespace Tags

/-- A new value keeps the place of an old one. -/
def set (tags : Tags) (key : Text) (value : TagValue) : Tags :=
  if tags.any (·.1 == key) then
    tags.map fun entry => if entry.1 == key then (key, value) else entry
  else tags ++ [(key, value)]

def get? (tags : Tags) (key : Text) : Option TagValue := (tags.find? (·.1 == key)).map (·.2)

/-- Later entries overwrite earlier ones. -/
def ofList (entries : List (Text × TagValue)) : Tags :=
  entries.foldl (fun tags entry => tags.set entry.1 entry.2) []

def allText (tags : Tags) : Bool := tags.all (·.2.isText)

end Tags

/-- Tags as a caller may give them, under keys of any kind. -/
abbrev Mapping := List (TagValue × TagValue)

namespace Mapping

def ofTags (tags : Tags) : Mapping := tags.map fun entry => (.text entry.1, entry.2)

/-- The entries under keys that are text. -/
def tags (mapping : Mapping) : Tags :=
  mapping.filterMap fun
    | (.text key, value) => some (key, value)
    | _ => none

def allText (mapping : Mapping) : Bool := mapping.all fun entry => entry.1.isText && entry.2.isText

end Mapping

end Rollup
