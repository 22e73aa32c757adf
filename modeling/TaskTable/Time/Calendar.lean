/-!
# Calendar

Days counted from the first day of year 0 in the Gregorian calendar, and the dates they fall on.
-/

namespace TaskTable
namespace Time

/-- Whether a year has a 29th of February. -/
def isLeap (year : Int) : Bool :=
  year % 4 == 0 && (year % 100 != 0 || year % 400 == 0)

/-- The days from the first day of year 0 to the first day of a year. -/
def daysBefore (year : Int) : Int :=
  365 * year + (year + 3) / 4 - (year + 99) / 100 + (year + 399) / 400

/-- The lengths of the months. -/
def monthLengths (leap : Bool) : List Nat :=
  [31, if leap then 29 else 28, 31, 30, 31, 30, 31, 31, 30, 31, 30, 31]

/-- The year that a day falls into. The mean length of a year gives it up to one. -/
def yearOf (day : Int) : Int :=
  let guess := 400 * day / 146097
  if daysBefore (guess + 1) ≤ day then guess + 1
  else if daysBefore guess ≤ day then guess
  else guess - 1

/-- The month and the day of the month of a day counted from 0, both counted from 0. -/
def splitMonth : List Nat → Nat → Nat × Nat
  | [], day => (0, day)
  | length :: rest, day =>
    if day < length then (0, day)
    else ((splitMonth rest (day - length)).1 + 1, (splitMonth rest (day - length)).2)

/-- A date of the Gregorian calendar. Months and days count from 1. -/
structure Date where
  year : Int
  month : Nat
  day : Nat
  deriving DecidableEq, Repr

/-- The date that a day falls on. -/
def Date.ofDays (days : Int) : Date :=
  let year := yearOf days
  let (month, day) := splitMonth (monthLengths (isLeap year)) (days - daysBefore year).toNat
  ⟨year, month + 1, day + 1⟩

/-- Whether the date exists. -/
def Date.isValid (d : Date) : Bool :=
  1 ≤ d.month && 1 ≤ d.day && d.day ≤ (monthLengths (isLeap d.year)).getD (d.month - 1) 0

/-- The day that a date falls on. -/
def Date.toDays (d : Date) : Int :=
  let months := (monthLengths (isLeap d.year)).take (d.month - 1)
  daysBefore d.year + (months.foldr (· + ·) 0 : Nat) + (d.day - 1 : Nat)

/-- The day on which the year 1970 begins. -/
def epochDay : Int :=
  daysBefore 1970

end Time
end TaskTable
