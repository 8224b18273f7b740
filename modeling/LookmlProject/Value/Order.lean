import LookmlProject.Text.Order
import LookmlProject.Value.Equal

/-!
# Values in order

Numbers are ordered by what they count, texts by code points, and lists by their first elements that
differ.  Values of different kinds have no order, and neither have nulls and records.
-/

namespace LookmlProject.Value

mutual

/-- Whether one value is before another. -/
def before : Value → Value → Except Fault Bool
  | .text a, .text b => .ok (!Text.le b a)
  | .list xs, .list ys => beforeItems xs ys
  | a, b =>
    match a.quantity?, b.quantity? with
    | some x, some y => .ok (x.lt y)
    | _, _ => .error .wrongShape

/-- Whether one list is before another. -/
def beforeItems : List Value → List Value → Except Fault Bool
  | [], ys => .ok (!ys.isEmpty)
  | _ :: _, [] => .ok false
  | x :: xs, y :: ys => if x == y then beforeItems xs ys else before x y

end

/-- Values in order with one more, behind those that it is not before. -/
def insertInOrder (v : Value) : List Value → Except Fault (List Value)
  | [] => .ok [v]
  | w :: rest => do
    if ← before v w then return v :: w :: rest else return w :: (← insertInOrder v rest)

/-- Values in order. -/
def sorted (values : List Value) : Except Fault (List Value) :=
  values.foldlM (fun done v => insertInOrder v done) []

end LookmlProject.Value
