/-!
# Base64

Three bytes are four digits of six bits each; equals signs fill up the last group.  Decoding is
lenient: it passes over characters that are no digits, and stops where a group is filled up.  Bytes
are natural numbers below 256.
-/

namespace LookmlProject.Base64

/-- The digit for six bits. -/
def digit (n : Nat) : Char :=
  if n < 26 then Char.ofNat (65 + n)
  else if n < 52 then Char.ofNat (71 + n)
  else if n < 62 then Char.ofNat (n - 4)
  else if n = 62 then '+'
  else '/'

/-- The six bits of a digit. -/
def digit? (c : Char) : Option Nat :=
  let n := c.toNat
  if 65 ≤ n ∧ n < 91 then some (n - 65)
  else if 97 ≤ n ∧ n < 123 then some (n - 71)
  else if 48 ≤ n ∧ n < 58 then some (n + 4)
  else if c = '+' then some 62
  else if c = '/' then some 63
  else none

/-- The base64 text of bytes. -/
def encode : List Nat → List Char
  | [] => []
  | [a] => [digit (a / 4), digit (a % 4 * 16), '=', '=']
  | [a, b] => [digit (a / 4), digit (a % 4 * 16 + b / 16), digit (b % 16 * 4), '=']
  | a :: b :: c :: rest =>
    digit (a / 4) :: digit (a % 4 * 16 + b / 16) :: digit (b % 16 * 4 + c / 64) ::
      digit (c % 64) :: encode rest

/-- Where decoding stands in a group: the number of its digits so far, the bits that are left over
from the last one, and the number of equals signs since. -/
structure Place where
  count : Nat
  left : Nat
  fill : Nat

/-- The start of a group. -/
def Place.start : Place := ⟨0, 0, 0⟩

/-- The bytes that a digit completes, and the place behind it. -/
def Place.take (place : Place) (d : Nat) : List Nat × Place :=
  match place.count with
  | 0 => ([], ⟨1, d, 0⟩)
  | 1 => ([place.left * 4 + d / 16], ⟨2, d % 16, 0⟩)
  | 2 => ([place.left * 16 + d / 4], ⟨3, d % 4, 0⟩)
  | _ => ([place.left * 64 + d], .start)

/-- Decodes from a place on. -/
def decodeFrom : Place → List Char → Option (List Nat)
  | place, [] => if place.count = 0 then some [] else none
  | place, c :: rest =>
    if c = '=' then
      if place.count < 2 then decodeFrom place rest
      else if 4 ≤ place.count + (place.fill + 1) then some []
      else decodeFrom { place with fill := place.fill + 1 } rest
    else
      match digit? c with
      | none => decodeFrom place rest
      | some d => ((place.take d).1 ++ ·) <$> decodeFrom (place.take d).2 rest

/-- The bytes of a base64 text, unless it ends inside a group. -/
def decode (cs : List Char) : Option (List Nat) := decodeFrom .start cs

end LookmlProject.Base64
