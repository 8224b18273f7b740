import LookmlProject.Text.Search
import LookmlProject.Value.Equal

/-!
# Access to values

What a value yields when it is asked for an entry, an element or its length, and the fault when its
shape has none.
-/

namespace LookmlProject.Value

/-- The entry of a record under a key. -/
def lookup (v : Value) (key : String) : Except Fault Value :=
  match v with
  | .record fields =>
    match Fields.get? fields key with
    | some x => .ok x
    | none => .error (.missingKey key)
  | _ => .error .wrongShape

/-- Whether something stands in a value: as a key of a record, an element of a list or a part of a
text. -/
def holds (v item : Value) : Except Fault Bool :=
  match v, item with
  | .record fields, .text key => .ok (Fields.has fields key)
  | .record _, _ => if item.isKey then .ok false else .error .wrongShape
  | .list items, _ => .ok (items.contains item)
  | .text s, .text part => .ok (Text.occurs part.toList s.toList)
  | _, _ => .error .wrongShape

/-- Whether a text stands in a value. -/
def has (v : Value) (key : String) : Except Fault Bool := v.holds (.text key)

/-- What a walk through a value meets: the elements of a list, the characters of a text or the keys
of a record. -/
def elements (v : Value) : Except Fault (List Value) :=
  match v with
  | .list items => .ok items
  | .text s => .ok (s.toList.map ofChar)
  | .record fields => .ok (fields.map fun f => .text f.1)
  | _ => .error .wrongShape

/-- The number of elements. -/
def length (v : Value) : Except Fault Nat :=
  match v with
  | .list items => .ok items.length
  | .text s => .ok s.length
  | .record fields => .ok fields.length
  | _ => .error .wrongShape

/-- The element at a position; a negative position counts from the end. -/
def nth (v : Value) (position : Int) : Except Fault Value :=
  let pick (items : List Value) : Except Fault Value :=
    let place := if position < 0 then position + items.length else position
    if place < 0 then .error .outOfRange
    else
      match items[place.toNat]? with
      | some x => .ok x
      | none => .error .outOfRange
  match v with
  | .list items => pick items
  | .text s => pick (s.toList.map ofChar)
  | .record _ => .error .missingEntry
  | _ => .error .wrongShape

/-- What a value holds under a key or at a position; a truth value is the position one or zero. -/
def entry (v key : Value) : Except Fault Value :=
  match v, key with
  | _, .text k => v.lookup k
  | .record _, _ => if key.isKey then .error .missingEntry else .error .wrongShape
  | _, .int n => v.nth n
  | _, .bool b => v.nth b.toNat
  | _, _ => .error .wrongShape

/-- The entries that a value adds to a record: a record its own, and any other value those for which
its elements are pairs of a key and a value. -/
def entries (v : Value) : Except Fault (List (Value × Value)) :=
  match v with
  | .record fields => .ok (fields.map fun f => (.text f.1, f.2))
  | _ => do
    (← v.elements).mapM fun pair => do
      match ← pair.elements with
      | [key, value] => return (← key.asKey, value)
      | _ => throw .badValue

/-- The text of a value that is a text. -/
def asText (v : Value) : Except Fault String :=
  match v with
  | .text s => .ok s
  | _ => .error .wrongShape

/-- The path that a value is.  A number is a stream: the three standard ones have no path, and no
other is there. -/
def asPath (v : Value) : Except Fault String :=
  match v with
  | .text s => .ok s
  | .int n =>
    if n < -Int.pow 2 31 || Int.pow 2 31 ≤ n then .error .tooLarge
    else if 0 ≤ n && n ≤ 2 then .error .wrongShape
    else .error (.missingFile (toString n))
  | _ => .error .wrongShape

/-- The path of a file to write that a value is.  A number is a stream, and none is open. -/
def asTarget (v : Value) : Except Fault String :=
  match v with
  | .text s => .ok s
  | .int n =>
    if n < -Int.pow 2 31 || Int.pow 2 31 ≤ n then .error .wrongShape
    else if n < 0 then .error .badValue
    else .error .noStream
  | _ => .error .wrongShape

end LookmlProject.Value
