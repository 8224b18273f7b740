import LookmlProject.Value.Basic
import LookmlProject.Decimal.Layout
import LookmlProject.Text.Quoted
import LookmlProject.Text.Search

/-!
# The text of a value

A text shows itself.  Every other value shows as it would be written down: lists in brackets,
records in braces, texts inside them in quotes.
-/

namespace LookmlProject.Value

/-- The spelling of floating-point numbers that are no number or infinite. -/
def beyondNumbers : Decimal.Beyond := ⟨"nan", "inf"⟩

mutual

/-- The written form of a value, with texts in quotes. -/
def written : Value → List Char
  | .null => "None".toList
  | .bool true => "True".toList
  | .bool false => "False".toList
  | .int n => (toString n).toList
  | .float x => (Decimal.write beyondNumbers x).toList
  | .text s => Text.quoted s.toList
  | .list items => '[' :: Text.joinWith ", ".toList (writtenItems items) ++ [']']
  | .record fields => '\x7b' :: Text.joinWith ", ".toList (writtenFields fields) ++ ['\x7d']

/-- The written forms of the elements of a list. -/
def writtenItems : List Value → List (List Char)
  | [] => []
  | v :: rest => written v :: writtenItems rest

/-- The written forms of the entries of a record. -/
def writtenFields : List (String × Value) → List (List Char)
  | [] => []
  | (k, v) :: rest => (Text.quoted k.toList ++ ": ".toList ++ written v) :: writtenFields rest

end

/-- The text of a value. -/
def display : Value → String
  | .text s => s
  | v => String.ofList (written v)

end LookmlProject.Value
