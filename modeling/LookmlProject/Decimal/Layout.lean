import LookmlProject.Decimal.Shortest

/-!
# Layout of decimals

How the digits of a number are written: with a point inside or beside them while the number is
neither very large nor very small, and with an exponent of at least two digits otherwise.
-/

namespace LookmlProject.Decimal

/-- The decisions of a number format: the exponents of the leading digit that are still written
with a point, and the least number of digits of a written exponent. -/
structure Layout where
  lowest : Int
  highest : Int
  exponentWidth : Nat

/-- Numbers from `0.0001` up to below `10 ^ 16` have a point. -/
def standard : Layout := ⟨-4, 15, 2⟩

/-- Zeros in front of digits up to a width. -/
def padZeros (width : Nat) (ds : List Char) : List Char :=
  List.replicate (width - ds.length) '0' ++ ds

/-- Digits with the point at its place, and at least one digit on either side of it. -/
def positional (d : Digits) : List Char :=
  if d.point ≤ 0 then ['0', '.'] ++ List.replicate (-d.point).toNat '0' ++ d.digits
  else
    let place := d.point.toNat
    if d.digits.length ≤ place then
      d.digits ++ List.replicate (place - d.digits.length) '0' ++ ['.', '0']
    else d.digits.take place ++ ['.'] ++ d.digits.drop place

/-- Digits with the point after the first and an exponent. -/
def scientific (layout : Layout) (d : Digits) : List Char :=
  let exponent := d.point - 1
  let mantissa :=
    match d.digits with
    | [] => ['0']
    | [c] => [c]
    | c :: rest => c :: '.' :: rest
  let sign := if exponent < 0 then '-' else '+'
  mantissa ++ ['e', sign] ++ padZeros layout.exponentWidth (Nat.toDigits 10 exponent.natAbs)

/-- Digits in a layout. -/
def Layout.write (layout : Layout) (d : Digits) : List Char :=
  if layout.lowest ≤ d.point - 1 ∧ d.point - 1 ≤ layout.highest then positional d
  else scientific layout d

/-- The texts for what is no number and for what lies beyond all numbers. -/
structure Beyond where
  notNumber : String
  infinite : String

/-- A floating-point number as a text. -/
def write (beyond : Beyond) (x : Float) : String :=
  let bits := x.toBits.toNat
  let negative := decide (Nat.pow 2 63 ≤ bits)
  let magnitude := bits % Nat.pow 2 63
  let infinity := 2047 * Nat.pow 2 52
  if infinity < magnitude then beyond.notNumber
  else
    let body :=
      if magnitude = infinity then beyond.infinite
      else if magnitude = 0 then "0.0"
      else String.ofList (standard.write (Binary.ofBits magnitude).shortest)
    if negative then "-" ++ body else body

end LookmlProject.Decimal
