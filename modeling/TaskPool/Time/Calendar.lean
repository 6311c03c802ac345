/-!
# The calendar

A `Date` of the Gregorian calendar, before its introduction as well as after, and its number,
counted in days from 1970-01-01.

* `Date.number`     the number of a date
* `Date.ofNumber`   the date of a number
* `Date.isValid`    the month has that day

Both run on years that begin in March, so that the leap day is the last day of a year, and on
eras of 400 years, which all have the same number of days.
-/

namespace TaskPool

structure Date where
  year : Int
  month : Nat
  day : Nat
  deriving DecidableEq

namespace Date

def daysOfEra : Nat := 146097

/-- days from the first day of era 0 to 1970-01-01 -/
def shift : Int := 719468

/-- the day of the year, from 0 on, of a date in a year that begins in March -/
def dayOfYear (month day : Nat) : Nat :=
  (153 * (if 2 < month then month - 3 else month + 9) + 2) / 5 + day - 1

/-- the days of an era before its year number `y` -/
def daysBefore (y : Nat) : Nat := y * 365 + y / 4 - y / 100

def number (d : Date) : Int :=
  let year := if d.month ≤ 2 then d.year - 1 else d.year
  let era := year / 400
  let yearOfEra := (year % 400).toNat
  era * daysOfEra + (daysBefore yearOfEra + dayOfYear d.month d.day : Nat) - shift

def ofNumber (n : Int) : Date :=
  let days := n + shift
  let era := days / daysOfEra
  let dayOfEra := (days % daysOfEra).toNat
  let yearOfEra := (dayOfEra - dayOfEra / 1460 + dayOfEra / 36524 - dayOfEra / 146096) / 365
  let day := dayOfEra - daysBefore yearOfEra
  let monthIndex := (5 * day + 2) / 153
  let month := if monthIndex < 10 then monthIndex + 3 else monthIndex - 9
  { year := era * 400 + yearOfEra + (if month ≤ 2 then 1 else 0)
    month := month
    day := day - (153 * monthIndex + 2) / 5 + 1 }

def isLeapYear (y : Int) : Bool := y % 4 == 0 && (y % 100 != 0 || y % 400 == 0)

def daysInMonth (y : Int) (m : Nat) : Nat :=
  if m = 2 then (if isLeapYear y then 29 else 28)
  else if m = 4 ∨ m = 6 ∨ m = 9 ∨ m = 11 then 30
  else 31

def isValid (d : Date) : Bool :=
  decide (1 ≤ d.month) && decide (d.month ≤ 12) && decide (1 ≤ d.day) &&
    decide (d.day ≤ daysInMonth d.year d.month)

end Date

end TaskPool
