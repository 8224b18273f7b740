/-!
# Numbers in table cells

A cell of a table may write a number with ASCII digits and blanks around it.  A whole number is read
exactly, within bounds.  Of any other number at most seventeen digits are kept, and the number that
they write is multiplied or divided once by a power of ten.
-/

namespace LookmlProject.Decimal

/-- A blank of ASCII. -/
def isAsciiBlank (c : Char) : Bool := c == ' ' || (9 ≤ c.toNat && c.toNat ≤ 13)

/-- The number that ASCII digits write. -/
def digitsValue (digits : List Char) : Nat :=
  digits.foldl (fun total c => total * 10 + (c.toNat - 48)) 0

/-- What a cell says when it is read as a whole number. -/
inductive WholeScan where
  /-- A whole number within the bounds. -/
  | whole (n : Int)
  /-- A whole number beyond the bounds comes first. -/
  | beyond
  /-- No whole number. -/
  | other
deriving DecidableEq, Repr

/-- A sign, true for minus, and what follows it. -/
def splitSign : List Char → Bool × List Char
  | '-' :: rest => (true, rest)
  | '+' :: rest => (false, rest)
  | rest => (false, rest)

/-- Reads a whole number from `low` to `high`. -/
def scanWhole (low high : Int) (cs : List Char) : WholeScan :=
  let (negative, rest) := splitSign (cs.dropWhile isAsciiBlank)
  let digits := rest.takeWhile Char.isDigit
  if digits.isEmpty then .other
  else
    let n : Int := if negative then -(digitsValue digits : Int) else digitsValue digits
    if n < low ∨ high < n then .beyond
    else if (rest.dropWhile Char.isDigit).all isAsciiBlank then .whole n
    else .other

/-- How many digits of a number are kept. -/
def keptDigits : Nat := 17

/-- A power of ten as a floating-point number. -/
def powerOfTen (n : Nat) : Float := Float.ofScientific 1 false n

/-- The greatest power of ten. -/
def maxPower : Int := 308

/-- A number times a power of ten that is not too great. -/
def scaleByTen (x : Float) (exponent : Int) : Float :=
  if 0 < exponent then x * powerOfTen exponent.toNat
  else if exponent < -2 * maxPower then 0
  else if exponent < -maxPower then
    x / powerOfTen (-maxPower - exponent).toNat / powerOfTen maxPower.toNat
  else x / powerOfTen (-exponent).toNat

/-- An exponent in the 32 bits that it is kept in. -/
def wrapExponent (n : Int) : Int := n.bmod (Nat.pow 2 32)

/-- The digits before and behind the point, and what follows them. -/
def splitPoint (cs : List Char) : List Char × List Char × List Char :=
  let whole := cs.takeWhile Char.isDigit
  match cs.dropWhile Char.isDigit with
  | '.' :: rest => (whole, rest.takeWhile Char.isDigit, rest.dropWhile Char.isDigit)
  | rest => (whole, [], rest)

/-- The exponent behind an `e`, zero where there is none, and what follows it. -/
def splitExponent (cs : List Char) : Int × List Char :=
  let read (rest : List Char) : Int × List Char :=
    let (negative, digits) := splitSign rest
    let taken := (digits.takeWhile Char.isDigit).take keptDigits
    if taken.isEmpty then (0, cs)
    else
      let n : Int := digitsValue taken
      (if negative then -n else n, digits.drop taken.length)
  match cs with
  | 'e' :: rest => read rest
  | 'E' :: rest => read rest
  | _ => (0, cs)

/-- Whether two texts agree when the letters of ASCII have no case. -/
def sameLetters (cs : List Char) (word : String) : Bool := cs.map Char.toLower == word.toList

/-- Reads infinity by its name. -/
def scanInfinity (cs : List Char) : Option Float :=
  let (negative, rest) := splitSign cs
  if sameLetters rest "inf" || sameLetters rest "infinity" then
    some (if negative then -1 / 0 else 1 / 0)
  else none

/-- Reads a number; one that is too large for a floating-point number is none, and neither is one
with too great an exponent. -/
def scanNumber (cs : List Char) : Option Float :=
  let (negative, unsigned) := splitSign (cs.dropWhile isAsciiBlank)
  let (whole, fraction, rest) := splitPoint unsigned
  let (power, rest) := splitExponent rest
  let keptWhole := whole.take keptDigits
  let keptFraction := fraction.take (keptDigits - keptWhole.length)
  let kept := keptWhole ++ keptFraction
  let x := kept.foldl (fun total c => total * 10 + Float.ofNat (c.toNat - 48)) 0.0
  let exponent := wrapExponent
    (wrapExponent power + (whole.length - keptWhole.length : Nat) - keptFraction.length)
  let value := scaleByTen (if negative then -x else x) exponent
  if kept.isEmpty || maxPower < exponent || !rest.all isAsciiBlank || value.isInf then
    scanInfinity cs
  else some value

end LookmlProject.Decimal
