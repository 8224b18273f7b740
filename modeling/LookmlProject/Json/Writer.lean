import LookmlProject.Decimal.Layout
import LookmlProject.Decimal.Whole
import LookmlProject.Json.Basic
import LookmlProject.Text.Search

/-!
# JSON texts

JSON in plain ASCII: a comma and a blank between elements, a colon and a blank after a key, and an
escape for every unit outside the visible ASCII characters.  A whole number of too many digits is
not written.
-/

namespace LookmlProject.Json

/-- The spelling of floating-point numbers that are no number or infinite. -/
def beyondNumbers : Decimal.Beyond := ⟨"NaN", "Infinity"⟩

/-- One unit as an escape. -/
def unitEscape (u : UInt16) : List Char :=
  '\\' :: 'u' :: Decimal.padZeros 4 (Nat.toDigits 16 u.toNat)

/-- One unit inside a JSON string. -/
def unitText (u : UInt16) : List Char :=
  if 32 ≤ u && u < 127 then
    let c := Char.ofNat u.toNat
    if c = '"' || c = '\\' then ['\\', c] else [c]
  else if u = 8 then ['\\', 'b']
  else if u = 9 then ['\\', 't']
  else if u = 10 then ['\\', 'n']
  else if u = 12 then ['\\', 'f']
  else if u = 13 then ['\\', 'r']
  else unitEscape u

/-- A JSON string. -/
def stringText (units : List UInt16) : List Char := '"' :: units.flatMap unitText ++ ['"']

mutual

/-- The text of a JSON value. -/
def chars : Json → List Char
  | .null => "null".toList
  | .bool true => "true".toList
  | .bool false => "false".toList
  | .int n => (toString n).toList
  | .float x => (Decimal.write beyondNumbers x).toList
  | .text s => stringText s
  | .list items => '[' :: Text.joinWith ", ".toList (itemTexts items) ++ [']']
  | .record fields => '\x7b' :: Text.joinWith ", ".toList (fieldTexts fields) ++ ['\x7d']

/-- The texts of the elements of a list. -/
def itemTexts : List Json → List (List Char)
  | [] => []
  | v :: rest => chars v :: itemTexts rest

/-- The texts of the entries of a record. -/
def fieldTexts : List (List UInt16 × Json) → List (List Char)
  | [] => []
  | (k, v) :: rest => (stringText k ++ ": ".toList ++ chars v) :: fieldTexts rest

end

/-- The text of a JSON value as a string. -/
def render (v : Json) : String := String.ofList (chars v)

mutual

/-- Whether no whole number in a JSON value is too long to be written. -/
def isWritable : Json → Bool
  | .int n => (Nat.toDigits 10 n.natAbs).length ≤ Decimal.maxDigits
  | .list items => itemsWritable items
  | .record fields => fieldsWritable fields
  | _ => true

/-- Whether elements can be written. -/
def itemsWritable : List Json → Bool
  | [] => true
  | v :: rest => v.isWritable && itemsWritable rest

/-- Whether entries can be written. -/
def fieldsWritable : List (List UInt16 × Json) → Bool
  | [] => true
  | (_, v) :: rest => v.isWritable && fieldsWritable rest

end

/-- Writes a JSON value, if it can be written. -/
def write (v : Json) : Except Fault String :=
  if v.isWritable then .ok v.render else .error .badValue

end LookmlProject.Json
