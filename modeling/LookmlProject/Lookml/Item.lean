import LookmlProject.Value.Basic

/-!
# Items

A LookML document is a sequence of items: parameters with one value, lists, and blocks of further
items.  `Item.fields` turns them into the entries of a record: a plural key, which a block may hold
many times, gathers its values in a list.
-/

namespace LookmlProject.Lookml

/-- An item of a document or a block. -/
inductive Item where
  /-- A parameter with one value. -/
  | pair (key value : String)
  /-- A parameter with a list of values. -/
  | values (key : String) (items : List String)
  /-- A parameter with a list of named values. -/
  | pairs (key : String) (items : List (String × String))
  /-- A block of items, which may have a name. -/
  | block (key : String) (name : Option String) (body : List Item)
deriving Inhabited

/-- The key of an item. -/
def Item.key : Item → String
  | .pair key _ => key
  | .values key _ => key
  | .pairs key _ => key
  | .block key _ _ => key

/-- The keys that a block may hold many times. -/
def pluralKeys : List String := [
  "view", "measure", "dimension", "dimension_group", "filter", "filters", "access_filter",
  "bind_filters", "map_layer", "parameter", "set", "column", "derived_column", "include",
  "explore", "link", "when", "allowed_value", "named_value_format", "join", "datagroup",
  "access_grant", "sql_step", "action", "param", "form_param", "option", "user_attribute_param",
  "assert", "test", "query", "extends", "aggregate_table"]

/-- Whether a block may hold a key many times. -/
def isPlural (key : String) : Bool := pluralKeys.contains key

/-- The key under which the values of a plural key are gathered. -/
def plural (key : String) : String :=
  if key = "filters" || key = "bind_filters" || key = "extends" then key ++ "__all"
  else if key = "query" then "queries"
  else key ++ "s"

/-- The first key that occurs again although it is not plural. -/
def repeatedKey? : List String → Option String
  | [] => none
  | key :: rest => if !isPlural key && rest.contains key then some key else repeatedKey? rest

open Value

/-- Adds the value of an item to the entries before it.  At the top of a document the last value of
a key wins; inside a block a second value is a fault. -/
def place (top : Bool) (fields : Fields) (key : String) (value : Value) : Except Fault Fields :=
  if isPlural key then
    match Fields.get? fields (plural key) with
    | none => .ok (Fields.set fields (plural key) (.list [value]))
    | some (.list items) => .ok (Fields.set fields (plural key) (.list (items ++ [value])))
    | some _ => .error .noMember
  else if !top && Fields.has fields key then .error (.repeatedKey key)
  else .ok (Fields.set fields key value)

mutual

/-- The value of an item. -/
def Item.value : Item → Except Fault Value
  | .pair _ value => .ok (.text value)
  | .values _ items => .ok (.list (items.map Value.text))
  | .pairs _ items => .ok (.list (items.map fun p => .record [(p.1, .text p.2)]))
  | .block _ name body =>
    match Item.addAll false [] body with
    | .error fault => .error fault
    | .ok fields =>
      match name with
      | none => .ok (.record fields)
      | some n => .ok (.record (Fields.set fields "name" (.text n)))

/-- Adds items to entries, in order. -/
def Item.addAll (top : Bool) (fields : Fields) : List Item → Except Fault Fields
  | [] => .ok fields
  | item :: rest =>
    match item.value with
    | .error fault => .error fault
    | .ok value =>
      match place top fields item.key value with
      | .error fault => .error fault
      | .ok fields => Item.addAll top fields rest

end

/-- The entries of a document. -/
def Item.fields (items : List Item) : Except Fault Fields := Item.addAll true [] items

end LookmlProject.Lookml
