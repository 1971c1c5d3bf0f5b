import EchoLog.Calendar.Date
/-!
# Instants and local times

An instant is a number of seconds since the epoch and a fraction of a second.  A leap second is
written as a fraction of one second or more on the last second of a minute.  A local time is an
instant as a clock shows it that is some seconds east of Greenwich.
-/

namespace EchoLog

/-- A moment in time. -/
structure Instant where
  /-- Whole seconds since the epoch. -/
  seconds : Int
  /-- Nanoseconds beyond; a billion and more during a leap second. -/
  nanos : Nat
deriving DecidableEq, Repr

/-- The first second that a calendar date can be given for: 1 January of the year -262143. -/
def Instant.earliest : Int := -8334601228800

/-- The last second that a calendar date can be given for: the end of the year 262142. -/
def Instant.latest : Int := 8210266876799

/-- The instant of a second and a fraction, if it can be represented: the second is in the calendar's
range and a leap second stands at the end of a minute. -/
def Instant.ofUnix? (seconds : Int) (nanos : Nat) : Option Instant :=
  if seconds < Instant.earliest || seconds > Instant.latest then none
  else if nanos ≥ 2000000000 then none
  else if nanos ≥ 1000000000 && seconds % 60 ≠ 59 then none
  else some ⟨seconds, nanos⟩

/-- A clock's distance from Greenwich. -/
inductive Zone where
  /-- Universal time. -/
  | utc
  /-- A fixed number of seconds east. -/
  | fixed (east : Int)
deriving DecidableEq, Repr

/-- Seconds east of Greenwich. -/
def Zone.east : Zone → Int
  | .utc => 0
  | .fixed east => east

/-- The zone of a fixed offset; offsets stay below one day. -/
def Zone.ofEast? (east : Int) : Option Zone :=
  if -86400 < east && east < 86400 then some (.fixed east) else none

/-- An instant together with the zone of the clock that shows it. -/
structure LocalTime where
  instant : Instant
  zone : Zone
deriving DecidableEq, Repr

namespace LocalTime

/-- Seconds since the epoch on the local clock. -/
def clockSeconds (t : LocalTime) : Int :=
  t.instant.seconds + t.zone.east

/-- The day number on the local clock. -/
def dayNumber (t : LocalTime) : Int :=
  t.clockSeconds / 86400

/-- Seconds since local midnight. -/
def secondOfDay (t : LocalTime) : Nat :=
  (t.clockSeconds % 86400).toNat

/-- The local date. -/
def date (t : LocalTime) : Date :=
  Date.ofDayNumber t.dayNumber

/-- The weekday, zero for Monday. -/
def weekday (t : LocalTime) : Nat :=
  weekdayOfDay t.dayNumber

/-- The hour. -/
def hour (t : LocalTime) : Nat :=
  t.secondOfDay / 3600

/-- The minute. -/
def minute (t : LocalTime) : Nat :=
  t.secondOfDay / 60 % 60

/-- The second; sixty during a leap second. -/
def second (t : LocalTime) : Nat :=
  t.secondOfDay % 60 + t.instant.nanos / 1000000000

/-- Nanoseconds beyond the second. -/
def nanosecond (t : LocalTime) : Nat :=
  t.instant.nanos % 1000000000

end LocalTime

end EchoLog
