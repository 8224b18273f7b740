/-!
# UTF-8

A character takes one to four bytes: the first tells how many follow, and each of those carries six
bits.  Decoding accepts exactly the shortest forms of characters.  Bytes are natural numbers below
256.
-/

namespace LookmlProject.Utf8

/-- The bytes of a character. -/
def encodeChar (c : Char) : List Nat :=
  let n := c.toNat
  if n < 0x80 then [n]
  else if n < 0x800 then [0xC0 + n / 64, 0x80 + n % 64]
  else if n < 0x10000 then [0xE0 + n / 4096, 0x80 + n / 64 % 64, 0x80 + n % 64]
  else [0xF0 + n / 262144, 0x80 + n / 4096 % 64, 0x80 + n / 64 % 64, 0x80 + n % 64]

/-- The bytes of a text. -/
def encode (cs : List Char) : List Nat := cs.flatMap encodeChar

/-- Whether a byte carries on a character. -/
def isTail (b : Nat) : Bool := 0x80 ≤ b && b < 0xC0

/-- The character of a code point that is at least `low`. -/
def charFrom (low n : Nat) : Option Char :=
  if low ≤ n ∧ n.isValidChar then some (Char.ofNat n) else none

/-- The first character of some bytes, and the bytes behind it. -/
def decodeChar : List Nat → Option (Char × List Nat)
  | [] => none
  | a :: rest =>
    if a < 0x80 then some (Char.ofNat a, rest)
    else
      match rest with
      | b :: rest =>
        if !isTail b then none
        else if 0xC0 ≤ a && a < 0xE0 then
          (charFrom 0x80 ((a - 0xC0) * 64 + (b - 0x80))).map fun c => (c, rest)
        else
          match rest with
          | c :: rest =>
            if !isTail c then none
            else if 0xE0 ≤ a && a < 0xF0 then
              (charFrom 0x800 ((a - 0xE0) * 4096 + (b - 0x80) * 64 + (c - 0x80))).map
                fun ch => (ch, rest)
            else
              match rest with
              | d :: rest =>
                if isTail d && 0xF0 ≤ a && a < 0xF8 then
                  (charFrom 0x10000 ((a - 0xF0) * 262144 + (b - 0x80) * 4096 +
                    (c - 0x80) * 64 + (d - 0x80))).map fun ch => (ch, rest)
                else none
              | [] => none
          | [] => none
      | [] => none

/-- Decodes at most `fuel` characters, which have to be all. -/
def decodeFuel : Nat → List Nat → Option (List Char)
  | _, [] => some []
  | 0, _ => none
  | fuel + 1, bytes =>
    match decodeChar bytes with
    | none => none
    | some (c, rest) => (c :: ·) <$> decodeFuel fuel rest

/-- The text of some bytes, which are no more characters than bytes. -/
def decode (bytes : List Nat) : Option (List Char) := decodeFuel bytes.length bytes

end LookmlProject.Utf8
