set_option autoImplicit false

/-! # The Gregorian calendar

Days are numbered from 1 January of the year 1, which is day 0; the calendar extends to all years
before and after. A year is found from a day by an estimate that is off by at most one, a month by
the days that precede it in its year. -/

namespace Lorebook

/-- A date of the calendar. -/
structure CivilDate where
  year : Int
  month : Nat
  day : Nat
deriving DecidableEq, Repr

namespace Calendar

/-- Whether a year has a 29 February. -/
def isLeap (year : Int) : Bool :=
  year % 4 = 0 && (year % 100 ≠ 0 || year % 400 = 0)

/-- The number of days before 1 January of a year. -/
def daysBeforeYear (year : Int) : Int :=
  365 * (year - 1) + (year - 1) / 4 - (year - 1) / 100 + (year - 1) / 400

/-- The number of days in a month. -/
def daysInMonth (leap : Bool) (month : Nat) : Nat :=
  if month = 2 then (if leap then 29 else 28)
  else if month = 4 || month = 6 || month = 9 || month = 11 then 30
  else 31

/-- The number of days of a year before a month. -/
def daysBeforeMonth (leap : Bool) : Nat → Nat
  | 0 => 0
  | 1 => 0
  | month + 1 => daysBeforeMonth leap month + daysInMonth leap month

/-- The year that holds a day. -/
def yearOf (day : Int) : Int :=
  let estimate := day * 400 / 146097 + 1
  if day < daysBeforeYear estimate then estimate - 1
  else if daysBeforeYear (estimate + 1) ≤ day then estimate + 1
  else estimate

/-- The month of the zero-based day of a year, looking no further than `limit`. -/
def monthOf (leap : Bool) (dayOfYear : Nat) : (limit : Nat) → Nat
  | 0 => 1
  | 1 => 1
  | limit + 1 =>
    if daysBeforeMonth leap (limit + 1) ≤ dayOfYear then limit + 1 else monthOf leap dayOfYear limit

/-- The date of a day. -/
def dateOf (day : Int) : CivilDate :=
  let year := yearOf day
  let dayOfYear := (day - daysBeforeYear year).toNat
  let month := monthOf (isLeap year) dayOfYear 12
  ⟨year, month, dayOfYear - daysBeforeMonth (isLeap year) month + 1⟩

/-- The day of a date; `none` when its month or day does not exist. -/
def dayOf? (date : CivilDate) : Option Int :=
  let leap := isLeap date.year
  if 1 ≤ date.month ∧ date.month ≤ 12 ∧ 1 ≤ date.day ∧ date.day ≤ daysInMonth leap date.month then
    some (daysBeforeYear date.year + ((daysBeforeMonth leap date.month + date.day - 1 : Nat) : Int))
  else none

end Calendar

end Lorebook
