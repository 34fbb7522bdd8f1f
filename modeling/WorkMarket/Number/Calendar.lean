/-!
# The calendar

Days are counted from the beginning of 1970 in the Gregorian calendar, which
is extended to all years.  The count goes by years that begin in March, so
that a leap day is the last day of its year, and by eras of four hundred
years, which all have the same number of days.
-/

namespace WorkMarket

/-- A day of the calendar. -/
structure CalendarDay where
  year : Int
  /-- January is one. -/
  month : Nat
  /-- The first day of a month is one. -/
  day : Nat
deriving DecidableEq

namespace CalendarDay

/-- Whether a year has a leap day. -/
def isLeapYear
    (year : Int) :
    Bool :=
  year % 4 = 0 && (year % 100 != 0 || year % 400 = 0)

/-- The number of days of a month. -/
def monthLength
    (year : Int)
    (month : Nat) :
    Nat :=
  if month = 2 then if isLeapYear year then 29 else 28
  else if month = 4 ∨ month = 6 ∨ month = 9 ∨ month = 11 then 30
  else 31

/-- A day that exists. -/
def of?
    (year : Int)
    (month day : Nat) :
    Option CalendarDay :=
  if 1 ≤ month ∧ month ≤ 12 ∧ 1 ≤ day ∧ day ≤ monthLength year month then
    some ⟨year, month, day⟩
  else none

/-- The days of an era. -/
def eraLength : Nat := 146097

/-- The days from the beginning of an era to the beginning of 1970. -/
def epochShift : Int := 719468

/-- The number of a day, counted from the beginning of 1970. -/
def toNumber
    (date : CalendarDay) :
    Int :=
  let year := if date.month ≤ 2 then date.year - 1 else date.year
  let yearOfEra := (year % 400).toNat
  let dayOfYear := (153 * ((date.month + 9) % 12) + 2) / 5 + (date.day - 1)
  let dayOfEra := 365 * yearOfEra + yearOfEra / 4 - yearOfEra / 100 + dayOfYear
  year / 400 * eraLength + dayOfEra - epochShift

/-- The day of a number. -/
def ofNumber
    (number : Int) :
    CalendarDay :=
  let shifted := number + epochShift
  let dayOfEra := (shifted % eraLength).toNat
  let yearOfEra :=
    (dayOfEra - dayOfEra / 1460 + dayOfEra / 36524 - dayOfEra / 146096) / 365
  let dayOfYear := dayOfEra - (365 * yearOfEra + yearOfEra / 4 - yearOfEra / 100)
  let monthOfYear := (5 * dayOfYear + 2) / 153
  let month := if monthOfYear < 10 then monthOfYear + 3 else monthOfYear - 9
  let year := shifted / eraLength * 400 + yearOfEra
  ⟨if month ≤ 2 then year + 1 else year, month, dayOfYear - (153 * monthOfYear + 2) / 5 + 1⟩

end CalendarDay

end WorkMarket
