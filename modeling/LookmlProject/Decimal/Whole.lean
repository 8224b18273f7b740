import LookmlProject.Text.Blank
import LookmlProject.Text.Digit

/-!
# Whole numbers in a text

A whole number is written with digits of any script, an optional sign in front, single underscores
between digits and white space around it.  A number of more than 4300 digits is not read.
-/

namespace LookmlProject.Decimal

/-- Reads digits, where an underscore may stand between two of them. -/
def readDigits : Nat → List Char → Option Nat
  | total, [] => some total
  | total, '_' :: c :: rest =>
    match Text.digit? c with
    | some d => readDigits (total * 10 + d) rest
    | none => none
  | total, c :: rest =>
    match Text.digit? c with
    | some d => readDigits (total * 10 + d) rest
    | none => none

/-- Reads a number without a sign; it starts with a digit. -/
def readUnsigned : List Char → Option Nat
  | [] => none
  | c :: rest =>
    match Text.digit? c with
    | some d => readDigits d rest
    | none => none

/-- White space around a number; the information separators are not part of it. -/
def isPadding (c : Char) : Bool := Text.isBlank c && !(28 ≤ c.toNat && c.toNat ≤ 31)

/-- Removes the white space around a number. -/
def unpad (cs : List Char) : List Char :=
  ((cs.dropWhile isPadding).reverse.dropWhile isPadding).reverse

/-- The greatest number of digits that is read, and that is written as JSON. -/
def maxDigits : Nat := 4300

/-- Reads a number without a sign that is not too long. -/
def readBounded (cs : List Char) : Option Nat :=
  if maxDigits < (cs.filter (· != '_')).length then none else readUnsigned cs

/-- Reads a whole number. -/
def readWhole (cs : List Char) : Option Int :=
  match unpad cs with
  | '+' :: rest => (readBounded rest).map Int.ofNat
  | '-' :: rest => (readBounded rest).map fun n => -(n : Int)
  | rest => (readBounded rest).map Int.ofNat

end LookmlProject.Decimal
