import LookmlProject.Decimal.Shortest
import LookmlProject.Value.Basic

/-!
# Equal values

Two values are equal if they are of one kind and have equal parts; the order of the entries of a
record does not matter.  Numbers of all kinds are compared by what they count, so a truth value
equals one or zero and a floating-point number the whole number that it stands for.
-/

namespace LookmlProject

/-- What a number counts, without rounding. -/
inductive Quantity where
  | finite (top : Int) (bottom : Nat)
  | infinite (negative : Bool)
  | undefined

namespace Quantity

/-- What a floating-point number counts. -/
def ofFloat (x : Float) : Quantity :=
  let bits := x.toBits.toNat
  let negative := !(bits < Nat.pow 2 63)
  if x.isNaN then .undefined
  else if x.isInf then .infinite negative
  else
    let value := Decimal.Binary.ofBits (bits % Nat.pow 2 63)
    let scaled := Decimal.Fraction.scale2 value.mantissa value.exponent
    .finite (if negative then -(scaled.top : Int) else scaled.top) scaled.bottom

/-- Whether two numbers count the same. -/
def same : Quantity → Quantity → Bool
  | .finite a b, .finite c d => a * d == c * b
  | .infinite a, .infinite b => a == b
  | _, _ => false

/-- Whether one number is below another. -/
def lt : Quantity → Quantity → Bool
  | .finite a b, .finite c d => a * d < c * b
  | .finite _ _, .infinite negative => !negative
  | .infinite negative, .finite _ _ => negative
  | .infinite a, .infinite b => a && !b
  | _, _ => false

/-- The whole number that a number counts, if it is whole. -/
def whole? : Quantity → Option Int
  | .finite top bottom => if top % bottom == 0 then some (top / bottom) else none
  | _ => none

end Quantity

namespace Value

/-- What a value counts, if it is a number or a truth value. -/
def quantity? : Value → Option Quantity
  | .bool b => some (.finite b.toNat 1)
  | .int n => some (.finite n 1)
  | .float x => some (.ofFloat x)
  | _ => none

/-- Whether two numbers count the same; what is no number equals none. -/
def sameQuantity (a b : Value) : Bool :=
  match a.quantity?, b.quantity? with
  | some x, some y => x.same y
  | _, _ => false

mutual

/-- Whether two values are equal. -/
def same : Value → Value → Bool
  | .null, .null => true
  | .text a, .text b => a == b
  | .list xs, .list ys => sameItems xs ys
  | .record fs, .record gs => fs.length == gs.length && sameFields fs gs
  | a, b => sameQuantity a b

/-- Whether two lists have equal elements. -/
def sameItems : List Value → List Value → Bool
  | [], [] => true
  | x :: xs, y :: ys => same x y && sameItems xs ys
  | _, _ => false

/-- Whether every entry of one record has an equal one in another. -/
def sameFields : List (String × Value) → List (String × Value) → Bool
  | [], _ => true
  | (k, v) :: rest, gs =>
    (match Fields.get? gs k with
      | some w => same v w
      | none => false) && sameFields rest gs

end

instance : BEq Value := ⟨same⟩

/-- Whether a value may be a key: lists and records may not. -/
def isKey : Value → Bool
  | .list _ | .record _ => false
  | _ => true

/-- A value as a key. -/
def asKey (v : Value) : Except Fault Value := if v.isKey then .ok v else .error .wrongShape

end Value

end LookmlProject
