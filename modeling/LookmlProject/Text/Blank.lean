/-!
# Blank characters

The white space that stripping a text removes at both ends.
-/

namespace LookmlProject.Text

/-- White space: the controls from tab to carriage return, the four information separators, the
space, the next-line control and the space separators and line separators of Unicode. -/
def isBlank (c : Char) : Bool :=
  let n := c.toNat
  (9 ≤ n && n ≤ 13) || (28 ≤ n && n ≤ 32) || n == 0x85 || n == 0xA0 || n == 0x1680 ||
    (0x2000 ≤ n && n ≤ 0x200A) || n == 0x2028 || n == 0x2029 || n == 0x202F || n == 0x205F ||
    n == 0x3000

/-- Removes white space at the start. -/
def stripStart (cs : List Char) : List Char := cs.dropWhile isBlank

/-- Removes white space at the end. -/
def stripEnd (cs : List Char) : List Char := (cs.reverse.dropWhile isBlank).reverse

/-- Removes white space at both ends. -/
def strip (cs : List Char) : List Char := stripEnd (stripStart cs)

end LookmlProject.Text
