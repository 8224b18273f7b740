import LookmlProject.Fault

/-!
# Values

Parsed LookML, settings and rows of tables are trees of one dynamic kind of value.  A record keeps
its entries in the order in which their keys first came.  Access to a value whose shape does not
allow it is a `Fault`, and the functions below say which.
-/

namespace LookmlProject

/-- A dynamic value. -/
inductive Value where
  | null
  | bool (b : Bool)
  | int (n : Int)
  | float (x : Float)
  | text (s : String)
  | list (items : List Value)
  | record (fields : List (String × Value))
deriving Inhabited

namespace Value

/-- The entries of a record. -/
abbrev Fields := List (String × Value)

/-- The value under a key. -/
def Fields.get? : Fields → String → Option Value
  | [], _ => none
  | (k, v) :: rest, key => if k = key then some v else Fields.get? rest key

/-- Whether a key has a value. -/
def Fields.has (fields : Fields) (key : String) : Bool := (Fields.get? fields key).isSome

/-- Puts a value under a key: in place if the key is there, at the end if it is not. -/
def Fields.set : Fields → String → Value → Fields
  | [], key, value => [(key, value)]
  | (k, v) :: rest, key, value =>
    if k = key then (k, value) :: rest else (k, v) :: Fields.set rest key value

/-- The record made by putting entries one after the other, so that the last value of a key wins. -/
def Fields.ofEntries (entries : List (String × Value)) : Fields :=
  entries.foldl (fun fields e => Fields.set fields e.1 e.2) []

/-- A value that counts as true: not null, false, zero or empty. -/
def truthy : Value → Bool
  | .null => false
  | .bool b => b
  | .int n => n != 0
  | .float x => x != 0
  | .text s => s != ""
  | .list items => !items.isEmpty
  | .record fields => !fields.isEmpty

/-- Whether a value is the given text. -/
def isText (s : String) : Value → Bool
  | .text t => t == s
  | _ => false

/-- Whether a value is the empty list. -/
def isEmptyList : Value → Bool
  | .list [] => true
  | _ => false

/-- A text with a single character. -/
def ofChar (c : Char) : Value := .text (String.singleton c)

end Value

end LookmlProject
