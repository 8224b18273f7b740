/-!
# UTF-16 units

A character is one unit of 16 bits, or a pair of them: a high and a low half.  In a sequence of units
a half may also stand alone, which then is no character.
-/

namespace LookmlProject.Text

/-- The units of a character. -/
def charUnits (c : Char) : List UInt16 :=
  if c.toNat < 0x10000 then [c.toNat.toUInt16]
  else
    let n := c.toNat - 0x10000
    [(0xD800 + n / 0x400).toUInt16, (0xDC00 + n % 0x400).toUInt16]

/-- The units of a text. -/
def units (cs : List Char) : List UInt16 := cs.flatMap charUnits

/-- A unit that starts a pair. -/
def isHigh (u : UInt16) : Bool := 0xD800 ≤ u && u < 0xDC00

/-- A unit that ends a pair. -/
def isLow (u : UInt16) : Bool := 0xDC00 ≤ u && u < 0xE000

/-- What is shown for a half that stands alone. -/
def replacement : Char := Char.ofNat 0xFFFD

/-- The character of a pair. -/
def pairChar (high low : UInt16) : Char :=
  Char.ofNat (0x10000 + (high.toNat - 0xD800) * 0x400 + (low.toNat - 0xDC00))

/-- The character of a unit that is in no pair. -/
def unitChar (u : UInt16) : Char :=
  if isHigh u || isLow u then replacement else Char.ofNat u.toNat

/-- The text of units, where a half that stands alone is replaced. -/
def ofUnits : List UInt16 → List Char
  | [] => []
  | [u] => [unitChar u]
  | u :: v :: rest =>
    if isHigh u && isLow v then pairChar u v :: ofUnits rest else unitChar u :: ofUnits (v :: rest)

end LookmlProject.Text
