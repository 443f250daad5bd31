/-
**The proleptic Gregorian calendar.** A date is a year, a month and a day; its day number counts
from 1970-01-01, which is day 0. Years before 1 are numbered 0, -1, and so on.

The day number is computed from a year that begins in March, so that the leap day is the last day
of the year, and from cycles of 400 years, which all have 146097 days.
-/

namespace Curation.Calendar

/-- A date of the calendar. -/
structure Date where
  year : Int
  month : Nat
  day : Nat
deriving DecidableEq

/-- Every fourth year is a leap year, except the centuries not divisible by 400. -/
def isLeap (year : Int) : Bool :=
  year % 4 == 0 && (year % 100 != 0 || year % 400 == 0)

/-- The number of days of a month. -/
def monthLength (year : Int) (month : Nat) : Nat :=
  if month = 2 then (if isLeap year then 29 else 28)
  else if month = 4 ∨ month = 6 ∨ month = 9 ∨ month = 11 then 30
  else 31

/-- A date is valid when its month exists and has its day. -/
def Date.Valid (date : Date) : Prop :=
  1 ≤ date.month ∧ date.month ≤ 12 ∧ 1 ≤ date.day ∧ date.day ≤ monthLength date.year date.month

instance (date : Date) : Decidable date.Valid := by unfold Date.Valid; infer_instance

/-- The number of days in a cycle of 400 years. -/
def cycleDays : Int := 146097

/-- The day number of 0000-03-01, counted back from 1970-01-01. -/
def marchOfYearZero : Int := 719468

/-- The number of days from 1970-01-01 to a date. -/
def Date.dayNumber (date : Date) : Int :=
  let year := if date.month ≤ 2 then date.year - 1 else date.year
  let yearOfCycle := year % 400
  let monthFromMarch : Int := ((date.month + 9) % 12 : Nat)
  let dayOfYear := (153 * monthFromMarch + 2) / 5 + date.day - 1
  let dayOfCycle := yearOfCycle * 365 + yearOfCycle / 4 - yearOfCycle / 100 + dayOfYear
  year / 400 * cycleDays + dayOfCycle - marchOfYearZero

/-- The date with a given day number. -/
def Date.ofDayNumber (dayNumber : Int) : Date :=
  let shifted := dayNumber + marchOfYearZero
  let dayOfCycle := shifted % cycleDays
  let yearOfCycle :=
    (dayOfCycle - dayOfCycle / 1460 + dayOfCycle / 36524 - dayOfCycle / 146096) / 365
  let dayOfYear := dayOfCycle - (365 * yearOfCycle + yearOfCycle / 4 - yearOfCycle / 100)
  let monthFromMarch := (5 * dayOfYear + 2) / 153
  let month := if monthFromMarch < 10 then monthFromMarch + 3 else monthFromMarch - 9
  let day := dayOfYear - (153 * monthFromMarch + 2) / 5 + 1
  let year := yearOfCycle + shifted / cycleDays * 400
  ⟨if month ≤ 2 then year + 1 else year, month.toNat, day.toNat⟩

example : (⟨1970, 1, 1⟩ : Date).dayNumber = 0 := by decide
example : (⟨2024, 2, 29⟩ : Date).dayNumber = 19782 := by decide
example : Date.ofDayNumber 19782 = ⟨2024, 2, 29⟩ := by decide
example : Date.ofDayNumber (-719528) = ⟨0, 1, 1⟩ := by decide

end Curation.Calendar
