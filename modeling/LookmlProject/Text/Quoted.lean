import LookmlProject.Decimal.Layout
import LookmlProject.Text.Printable

/-!
# Texts in quotes

A text is shown in single quotes, unless it has a single quote and no double one.  Inside, the quote
and the backslash have a backslash in front, and a character that cannot be printed is shown by its
code point.
-/

namespace LookmlProject.Text

/-- A number in base sixteen with at least the given width. -/
def hexDigits (width n : Nat) : List Char := Decimal.padZeros width (Nat.toDigits 16 n)

/-- One character inside quotes. -/
def quotedChar (quote c : Char) : List Char :=
  if c = quote || c = '\\' then ['\\', c]
  else if c = '\t' then ['\\', 't']
  else if c = '\n' then ['\\', 'n']
  else if c = '\r' then ['\\', 'r']
  else if isPrintable c then [c]
  else if c.toNat < 0x100 then '\\' :: 'x' :: hexDigits 2 c.toNat
  else if c.toNat < 0x10000 then '\\' :: 'u' :: hexDigits 4 c.toNat
  else '\\' :: 'U' :: hexDigits 8 c.toNat

/-- A text in quotes. -/
def quoted (cs : List Char) : List Char :=
  let quote := if cs.contains '\'' && !cs.contains '"' then '"' else '\''
  quote :: cs.flatMap (quotedChar quote) ++ [quote]

end LookmlProject.Text
