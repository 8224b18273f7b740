import LookmlProject.Keyed
import LookmlProject.Text.Units
import LookmlProject.Value.Basic

/-!
# JSON

JSON values are those of `Value`, except that the texts in them are sequences of UTF-16 units: an
escape in a JSON text stands for one unit, and halves of pairs may stand alone.
-/

namespace LookmlProject

/-- A JSON value. -/
inductive Json where
  | null
  | bool (b : Bool)
  | int (n : Int)
  | float (x : Float)
  | text (units : List UInt16)
  | list (items : List Json)
  | record (fields : List (List UInt16 × Json))
deriving Inhabited

namespace Json

/-- The entries of a record. -/
abbrev Fields := Keyed (List UInt16) Json

/-- The record made by putting entries one after the other, so that the last value of a key wins. -/
def Fields.ofEntries (entries : List (List UInt16 × Json)) : Fields :=
  entries.foldl (fun fields e => Keyed.set fields e.1 e.2) []

mutual

/-- A value as JSON. -/
def ofValue : Value → Json
  | .null => .null
  | .bool b => .bool b
  | .int n => .int n
  | .float x => .float x
  | .text s => .text (Text.units s.toList)
  | .list items => .list (ofItems items)
  | .record fields => .record (ofFields fields)

/-- Values as JSON. -/
def ofItems : List Value → List Json
  | [] => []
  | v :: rest => ofValue v :: ofItems rest

/-- The entries of a record as JSON. -/
def ofFields : List (String × Value) → List (List UInt16 × Json)
  | [] => []
  | (k, v) :: rest => (Text.units k.toList, ofValue v) :: ofFields rest

end

mutual

/-- The value that JSON stands for. -/
def toValue : Json → Value
  | .null => .null
  | .bool b => .bool b
  | .int n => .int n
  | .float x => .float x
  | .text u => .text (String.ofList (Text.ofUnits u))
  | .list items => .list (toItems items)
  | .record fields => .record (toFields fields)

/-- The values that JSON stands for. -/
def toItems : List Json → List Value
  | [] => []
  | v :: rest => toValue v :: toItems rest

/-- The entries that JSON stands for. -/
def toFields : List (List UInt16 × Json) → List (String × Value)
  | [] => []
  | (k, v) :: rest => (String.ofList (Text.ofUnits k), toValue v) :: toFields rest

end

end Json

end LookmlProject
