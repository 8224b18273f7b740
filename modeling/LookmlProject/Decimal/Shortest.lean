/-!
# Shortest decimals

A binary floating-point number is `m * 2 ^ q`.  The reals that round to it form an interval around
it, whose ends belong to it exactly if `m` is even.  Of the decimals in that interval the shortest
is taken: for one digit, two digits and so on, the two neighbours of the number on the grid of that
many digits are tested in exact arithmetic, and the first grid with a hit wins.  Of two hits the
nearer is taken, and of two equally near ones the even one.  Seventeen digits always suffice.
-/

namespace LookmlProject.Decimal

/-- A positive binary number `mantissa * 2 ^ exponent`; `boundary` says that the gap below it is half
the gap above it. -/
structure Binary where
  mantissa : Nat
  exponent : Int
  boundary : Bool

/-- A positive decimal `0.d₁d₂… * 10 ^ point`. -/
structure Digits where
  digits : List Char
  point : Int

/-- The finite positive number that the 63 lower bits of the binary format stand for. -/
def Binary.ofBits (bits : Nat) : Binary :=
  let fraction : Nat := bits % Nat.pow 2 52
  let field : Nat := (bits / Nat.pow 2 52) % Nat.pow 2 11
  if field = 0 then ⟨fraction, -1074, false⟩
  else ⟨Nat.pow 2 52 + fraction, (field : Int) - 1075, fraction = 0 ∧ 1 < field⟩

/-- A positive fraction of natural numbers. -/
structure Fraction where
  top : Nat
  bottom : Nat

/-- `n * 2 ^ e` as a fraction. -/
def Fraction.scale2 (n : Nat) (e : Int) : Fraction :=
  if e < 0 then ⟨n, Nat.pow 2 (-e).toNat⟩ else ⟨n * Nat.pow 2 e.toNat, 1⟩

/-- `n * 10 ^ e` as a fraction. -/
def Fraction.scale10 (n : Nat) (e : Int) : Fraction :=
  if e < 0 then ⟨n, Nat.pow 10 (-e).toNat⟩ else ⟨n * Nat.pow 10 e.toNat, 1⟩

/-- Whether one fraction is below another. -/
def Fraction.lt (a b : Fraction) : Bool := a.top * b.bottom < b.top * a.bottom

/-- How many zeros follow the point of a fraction below one. -/
def leadingZeros : Nat → Fraction → Nat
  | 0, _ => 0
  | fuel + 1, f =>
    if f.top * 10 < f.bottom then leadingZeros fuel ⟨f.top * 10, f.bottom⟩ + 1 else 0

/-- The place of the point: the least `k` for which the fraction is below `10 ^ k`. -/
def pointOf (f : Fraction) : Int :=
  let whole := f.top / f.bottom
  if whole = 0 then -(leadingZeros 400 f : Int) else ((Nat.toDigits 10 whole).length : Int)

/-- The distance of two fractions. -/
def Fraction.distance (a b : Fraction) : Fraction :=
  let l := a.top * b.bottom
  let r := b.top * a.bottom
  ⟨if l < r then r - l else l - r, a.bottom * b.bottom⟩

/-- Whether a decimal rounds to the binary number. -/
def Binary.takes (b : Binary) (f : Fraction) : Bool :=
  let low := Fraction.scale2 (4 * b.mantissa - (if b.boundary then 1 else 2)) (b.exponent - 2)
  let high := Fraction.scale2 (4 * b.mantissa + 2) (b.exponent - 2)
  if b.mantissa % 2 = 0 then !f.lt low && !high.lt f else low.lt f && f.lt high

/-- The multiple of `10 ^ unit` next to the number that rounds to it, if there is one. -/
def Binary.onGrid? (b : Binary) (unit : Int) : Option Nat :=
  let value := Fraction.scale2 b.mantissa b.exponent
  let below :=
    if unit < 0 then value.top * Nat.pow 10 (-unit).toNat / value.bottom
    else value.top / (value.bottom * Nat.pow 10 unit.toNat)
  let lower := Fraction.scale10 below unit
  let upper := Fraction.scale10 (below + 1) unit
  match b.takes lower, b.takes upper with
  | false, false => none
  | true, false => some below
  | false, true => some (below + 1)
  | true, true =>
    let toUnder := value.distance lower
    let toOver := value.distance upper
    if toUnder.lt toOver then some below
    else if toOver.lt toUnder then some (below + 1)
    else some (if below % 2 = 0 then below else below + 1)

/-- The first grid with a hit, from `count` digits on. -/
def Binary.search (b : Binary) (point : Int) : Nat → Nat → Nat × Int
  | 0, count => ((b.onGrid? (point - count)).getD 0, point - count)
  | fuel + 1, count =>
    match b.onGrid? (point - count) with
    | some n => (n, point - count)
    | none => b.search point fuel (count + 1)

/-- Removes the zeros at the end. -/
def dropZeros (ds : List Char) : List Char := (ds.reverse.dropWhile (· == '0')).reverse

/-- The shortest decimal of a positive binary number. -/
def Binary.shortest (b : Binary) : Digits :=
  let point := pointOf (Fraction.scale2 b.mantissa b.exponent)
  let hit := b.search point 16 1
  let digits := Nat.toDigits 10 hit.1
  ⟨dropZeros digits, hit.2 + digits.length⟩

end LookmlProject.Decimal
