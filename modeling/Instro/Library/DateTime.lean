import Instro.Library.PyNumber

/-!
# Dates and times

The proleptic Gregorian calendar from year 1 to year 9999, to the microsecond, in UTC.
-/

namespace Instro.Library

structure DateTime where
  year : ℤ
  month : ℤ
  day : ℤ
  hour : ℤ
  minute : ℤ
  second : ℤ
  microsecond : ℤ

namespace DateTime

def isLeap (year : ℤ) : Bool := year % 4 = 0 ∧ (year % 100 ≠ 0 ∨ year % 400 = 0)

/-- The days of a month, of January first. -/
def daysInMonth (year : ℤ) : List ℤ :=
  [31, if isLeap year then 29 else 28, 31, 30, 31, 30, 31, 31, 30, 31, 30, 31]

def Valid (t : DateTime) : Prop :=
  1 ≤ t.year ∧ t.year ≤ 9999 ∧ 1 ≤ t.month ∧ t.month ≤ 12 ∧ 1 ≤ t.day ∧
    t.day ≤ ((daysInMonth t.year)[(t.month - 1).toNat]?).getD 0 ∧ 0 ≤ t.hour ∧ t.hour < 24 ∧
      0 ≤ t.minute ∧ t.minute < 60 ∧ 0 ≤ t.second ∧ t.second < 60 ∧
        0 ≤ t.microsecond ∧ t.microsecond < 1000000

instance (t : DateTime) : Decidable t.Valid := by unfold Valid; infer_instance

/-- `toordinal`: 1 January of year 1 is day 1. -/
def toOrdinal (t : DateTime) : ℤ :=
  let y := t.year - 1
  y * 365 + y / 4 - y / 100 + y / 400 +
    ((daysInMonth t.year).take (t.month - 1).toNat).sum + t.day

/-- The microseconds since the Unix epoch. -/
def epochMicroseconds (t : DateTime) : ℤ :=
  (((t.toOrdinal - 719163) * 86400) + t.hour * 3600 + t.minute * 60 + t.second) * 1000000 +
    t.microsecond

/-- `timestamp()`: the seconds since the Unix epoch. -/
def timestamp (fl : Rounding) (t : DateTime) : PyFloat := fl (t.epochMicroseconds / 1000000)

end DateTime

end Instro.Library
