/-!
# Case shifts

Most letters differ from their other case by a fixed distance that a whole run of letters shares.
A `Shift` is such a run: its first and last code point, the step between its members (two where
capital and small letters alternate) and the distance.
-/

namespace LookmlProject.Text

/-- A run of letters whose other case lies at one distance. -/
structure Shift where
  first : Nat
  last : Nat
  step : Nat
  distance : Int

/-- Whether a code point is a member of the run. -/
def Shift.covers (s : Shift) (n : Nat) : Bool :=
  s.first ≤ n && n ≤ s.last && (n - s.first) % s.step == 0

/-- The other case of a code point under the first run that covers it. -/
def Shift.apply? (table : List Shift) (n : Nat) : Option Nat :=
  (table.find? (·.covers n)).map fun s => ((n : Int) + s.distance).toNat

end LookmlProject.Text
