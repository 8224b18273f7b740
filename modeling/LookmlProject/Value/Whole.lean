import LookmlProject.Decimal.Whole
import LookmlProject.Value.Equal

/-!
# Whole numbers from values

A whole number stands for itself, a truth value for one or zero, a floating-point number for its
whole part and a text for the number that it writes.
-/

namespace LookmlProject.Value

/-- The whole part of a number: what stands behind the point is cut off. -/
def wholePart : Quantity → Except Fault Int
  | .finite top bottom => .ok (top.tdiv bottom)
  | .infinite _ => .error .tooLarge
  | .undefined => .error .badValue

/-- The whole number that a value stands for. -/
def toWhole : Value → Except Fault Int
  | .int n => .ok n
  | .bool b => .ok b.toNat
  | .float x => wholePart (.ofFloat x)
  | .text s =>
    match Decimal.readWhole s.toList with
    | some n => .ok n
    | none => .error .badValue
  | _ => .error .wrongShape

end LookmlProject.Value
