import LookmlProject.Decimal.Layout
import LookmlProject.Fault

/-!
# Moments in time

A moment is a number of seconds since the start of 1970, and is shown as date and time of day.  Dates
run from the year 1 to the year 9999.
-/

namespace LookmlProject.Calendar

/-- A date of the calendar. -/
structure Date where
  year : Int
  month : Nat
  day : Nat
deriving DecidableEq, Repr

/-- The date of a day, counted from the start of 1970.  Years are taken to start in March, so that a
leap day ends its year, and are counted within eras of 400 years, which all have the same length. -/
def Date.ofDay (day : Int) : Date :=
  let shifted := day + 719468
  let era := shifted.fdiv 146097
  let dayOfEra := (shifted - era * 146097).toNat
  let yearOfEra :=
    (dayOfEra - dayOfEra / 1460 + dayOfEra / 36524 - dayOfEra / 146096) / 365
  let dayOfYear := dayOfEra - (365 * yearOfEra + yearOfEra / 4 - yearOfEra / 100)
  let monthFromMarch := (5 * dayOfYear + 2) / 153
  let month := if monthFromMarch < 10 then monthFromMarch + 3 else monthFromMarch - 9
  let year := era * 400 + yearOfEra + (if month ≤ 2 then 1 else 0)
  ⟨year, month, dayOfYear - (153 * monthFromMarch + 2) / 5 + 1⟩

/-- Two digits of a number. -/
def twoDigits (n : Nat) : String := String.ofList (Decimal.padZeros 2 (Nat.toDigits 10 n))

/-- Date and time of day of a moment. -/
def write (seconds : Int) : Except Fault String :=
  if seconds < -Int.pow 2 63 ∨ Int.pow 2 63 ≤ seconds then .error .tooLarge
  else if seconds < -67768040609740800 ∨ 67768036191676799 < seconds then .error .noSuchYear
  else
    let date := Date.ofDay (seconds.fdiv 86400)
    let rest := (seconds.fmod 86400).toNat
    if date.year < 1 ∨ 9999 < date.year then .error .badValue
    else .ok <|
      toString date.year ++ "-" ++ twoDigits date.month ++ "-" ++ twoDigits date.day ++ " " ++
        twoDigits (rest / 3600) ++ ":" ++ twoDigits (rest / 60 % 60) ++ ":" ++ twoDigits (rest % 60)

end LookmlProject.Calendar
