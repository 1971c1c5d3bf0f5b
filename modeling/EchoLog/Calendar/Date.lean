/-!
# Days and dates

Dates of the Gregorian calendar, extended to all years, counted as days from 1 January 1970.  A day
number determines its date; weekdays and the ISO week follow from both.
-/

namespace EchoLog

/-- A date: the year, and the day in it counted from one. -/
structure Date where
  year : Int
  ordinal : Nat
deriving DecidableEq, Repr

/-- Whether a year has 366 days. -/
def isLeapYear (year : Int) : Bool :=
  year % 4 = 0 && (year % 100 ≠ 0 || year % 400 = 0)

/-- The days of the twelve months. -/
def monthLengths (leap : Bool) : List Nat :=
  [31, if leap then 29 else 28, 31, 30, 31, 30, 31, 31, 30, 31, 30, 31]

/-- Month and day of the month, both from one, of the day `ordinal` within the months `lengths`, the
first of which is month `month`. -/
def monthAndDay : (month : Nat) → (lengths : List Nat) → (ordinal : Nat) → Nat × Nat
  | month, [], ordinal => (month, ordinal)
  | month, length :: rest, ordinal =>
    if ordinal ≤ length then (month, ordinal) else monthAndDay (month + 1) rest (ordinal - length)

namespace Date

/-- The date of a day counted from 1 January 1970.  The calendar repeats every 400 years of 146097
days; within them a century has 36524 days and four years have 1461, the last of each group being
one longer. -/
def ofDayNumber (day : Int) : Date :=
  let fromYearOne := day + 719162
  let cycle := fromYearOne / 146097
  let inCycle := (fromYearOne % 146097).toNat
  let century := min (inCycle / 36524) 3
  let inCentury := inCycle - century * 36524
  let quad := inCentury / 1461
  let inQuad := inCentury % 1461
  let single := min (inQuad / 365) 3
  ⟨1 + 400 * cycle + (100 * century + 4 * quad + single : Nat), inQuad - single * 365 + 1⟩

/-- Month and day of the month. -/
def monthDay (d : Date) : Nat × Nat :=
  monthAndDay 1 (monthLengths (isLeapYear d.year)) d.ordinal

/-- The month, from one. -/
def month (d : Date) : Nat := d.monthDay.1

/-- The day of the month, from one. -/
def day (d : Date) : Nat := d.monthDay.2

end Date

/-- The weekday of a day number: zero for Monday, six for Sunday. -/
def weekdayOfDay (day : Int) : Nat :=
  ((day + 3) % 7).toNat

/-- The number of ISO weeks of a year: 53 when it starts on a Thursday, or starts on a Wednesday and
is a leap year. -/
def isoWeeks (year : Int) : Nat :=
  let before := year - 1
  let firstDay := 365 * before + before / 4 - before / 100 + before / 400 - 719162
  let weekday := weekdayOfDay firstDay
  if weekday = 3 || (weekday = 2 && isLeapYear year) then 53 else 52

/-- The ISO year and week of a date on a given weekday: weeks start on Monday and belong to the year
that has their Thursday. -/
def isoWeek (date : Date) (weekday : Nat) : Int × Nat :=
  let week := ((date.ordinal : Int) - (weekday + 1) + 10) / 7
  if week < 1 then (date.year - 1, isoWeeks (date.year - 1))
  else if week > isoWeeks date.year then (date.year + 1, 1)
  else (date.year, week.toNat)

end EchoLog
