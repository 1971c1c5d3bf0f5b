import EchoLog.Calendar.Instant
import EchoLog.Pattern.Item
/-!
# Writing times

`Pattern.render?` writes a local time by the items of a pattern.  Every item but one has a text for
every time; a loose offset has none.  `Pattern.format?` reads the pattern first.
-/

namespace EchoLog.Pattern

/-- The three letters and the whole name of a month, from one. -/
def monthName (month : Nat) : String :=
  ["January", "February", "March", "April", "May", "June", "July", "August", "September",
    "October", "November", "December"].getD (month - 1) ""

/-- The name of a weekday, zero for Monday. -/
def weekdayName (weekday : Nat) : String :=
  ["Monday", "Tuesday", "Wednesday", "Thursday", "Friday", "Saturday", "Sunday"].getD weekday ""

/-- The first three letters. -/
def shortName (name : String) : String :=
  String.ofList (name.toList.take 3)

/-- The decimal digits of a number. -/
def digits (n : Nat) : List Char :=
  Nat.toDigits 10 n

/-- Fills `text` on the left with `c` up to `width` characters. -/
def fillLeft (c : Char) (width : Nat) (text : List Char) : List Char :=
  List.replicate (width - text.length) c ++ text

/-- A number with its sign where it has one or must show one, padded to `width` characters.  Zeros go
between sign and digits, spaces before the sign. -/
def signedNumber (pad : Pad) (width : Nat) (showSign : Bool) (n : Int) : List Char :=
  let sign := if n < 0 then ['-'] else if showSign then ['+'] else []
  let body := digits n.natAbs
  match pad with
  | .none => sign ++ body
  | .zero => sign ++ fillLeft '0' (width - sign.length) body
  | .space => fillLeft ' ' width (sign ++ body)

/-- A number of one byte in two places.  The tens place is the character that many places after `0`,
so it is a digit only below one hundred. -/
def twoPlaces (pad : Pad) (n : Int) : List Char :=
  let byte := (n % 256).toNat
  let tens := match byte / 10, pad with
    | 0, .none => []
    | 0, .space => [' ']
    | k, _ => [Char.ofNat (48 + k)]
  tens ++ digits (byte % 10)

/-- A year: four places between 0 and 9999, and one more with a sign beyond. -/
def yearText (pad : Pad) (year : Int) : List Char :=
  if 0 ≤ year && year ≤ 9999 then signedNumber pad 4 false year
  else signedNumber pad 5 true year

/-- The number of weeks begun by a date, where `daysSince` is its distance from the last start of a
week. -/
def weeksBegun (ordinal daysSince : Nat) : Nat :=
  (ordinal + 6 - daysSince) / 7

/-- The hour of a clock that counts to twelve. -/
def hourOfTwelve (hour : Nat) : Nat :=
  if hour % 12 = 0 then 12 else hour % 12

/-- A number field of a time. -/
def numberText (t : LocalTime) (field : Number) (pad : Pad) : List Char :=
  let sundayBased := (t.weekday + 1) % 7
  let iso := isoWeek t.date t.weekday
  match field with
  | .year => yearText pad t.date.year
  | .century => twoPlaces pad (t.date.year / 100)
  | .yearOfCentury => twoPlaces pad (t.date.year % 100)
  | .isoYear => yearText pad iso.1
  | .isoYearOfCentury => twoPlaces pad (iso.1 % 100)
  | .quarter => digits ((t.date.month - 1) / 3 + 1)
  | .month => twoPlaces pad t.date.month
  | .day => twoPlaces pad t.date.day
  | .weekFromSunday => twoPlaces pad (weeksBegun t.date.ordinal sundayBased)
  | .weekFromMonday => twoPlaces pad (weeksBegun t.date.ordinal t.weekday)
  | .isoWeek => twoPlaces pad iso.2
  | .daysFromSunday => digits sundayBased
  | .weekdayFromMonday => digits (t.weekday + 1)
  | .ordinal => signedNumber pad 3 false t.date.ordinal
  | .hour => twoPlaces pad t.hour
  | .hour12 => twoPlaces pad (hourOfTwelve t.hour)
  | .minute => twoPlaces pad t.minute
  | .second => twoPlaces pad t.second
  | .nanosecond => signedNumber pad 9 false t.nanosecond
  | .unixSeconds => signedNumber pad 9 false t.instant.seconds

/-- The first `places` digits of nine. -/
def fractionDigits (places nanos : Nat) : List Char :=
  fillLeft '0' places (digits (nanos / Nat.pow 10 (9 - places)))

/-- A fraction of a second with the fewest places of 3, 6 and 9 that lose nothing; nothing at all
when it is zero. -/
def fractionText (nanos : Nat) : List Char :=
  if nanos = 0 then []
  else if nanos % 1000000 = 0 then '.' :: fractionDigits 3 nanos
  else if nanos % 1000 = 0 then '.' :: fractionDigits 6 nanos
  else '.' :: fractionDigits 9 nanos

/-- Two decimal places. -/
def pair (n : Nat) : List Char :=
  fillLeft '0' 2 (digits n)

/-- The sign and size of an offset. -/
def signOf (east : Int) : Char :=
  if east < 0 then '-' else '+'

/-- Sign, hours and minutes of an offset rounded to the nearest minute. -/
def offsetMinutes (colon : Bool) (east : Int) : List Char :=
  let minutes := (east.natAbs + 30) / 60
  signOf east :: (pair (minutes / 60) ++ (if colon then [':'] else []) ++ pair (minutes % 60))

/-- Sign, hours, minutes and seconds of an offset. -/
def offsetSeconds (east : Int) : List Char :=
  let n := east.natAbs
  signOf east :: (pair (n / 3600) ++ ':' :: (pair (n / 60 % 60) ++ ':' :: pair (n % 60)))

/-- An offset in one of its forms; hours alone are cut and not rounded. -/
def offsetText (form : OffsetForm) (east : Int) : List Char :=
  match form with
  | .plain => offsetMinutes false east
  | .colon => offsetMinutes true east
  | .seconds => offsetSeconds east
  | .hours => signOf east :: pair (east.natAbs / 3600)

/-- The name of a zone: universal time has one, a fixed offset is its own name, with seconds only
when it has some. -/
def zoneText : Zone → List Char
  | .utc => "UTC".toList
  | .fixed east =>
    if east.natAbs % 60 = 0 then
      let n := east.natAbs
      signOf east :: (pair (n / 3600) ++ ':' :: pair (n / 60 % 60))
    else offsetSeconds east

/-- A whole time in the form of internet timestamps. -/
def timestampText (t : LocalTime) : List Char :=
  yearText .zero t.date.year ++ '-' :: (pair t.date.month ++ '-' :: (pair t.date.day ++
    'T' :: (pair t.hour ++ ':' :: (pair t.minute ++ ':' :: (pair t.second ++
      (fractionText t.nanosecond ++ offsetText .colon t.zone.east))))))

/-- The text of one item. -/
def itemText? (t : LocalTime) : Item → Option (List Char)
  | .literal c => some [c]
  | .number field pad => some (numberText t field pad)
  | .shortMonth => some (shortName (monthName t.date.month)).toList
  | .longMonth => some (monthName t.date.month).toList
  | .shortWeekday => some (shortName (weekdayName t.weekday)).toList
  | .longWeekday => some (weekdayName t.weekday).toList
  | .lowerHalf => some (if t.hour < 12 then ['a', 'm'] else ['p', 'm'])
  | .upperHalf => some (if t.hour < 12 then ['A', 'M'] else ['P', 'M'])
  | .fraction => some (fractionText t.nanosecond)
  | .pointFraction places => some ('.' :: fractionDigits places t.nanosecond)
  | .bareFraction places => some (fractionDigits places t.nanosecond)
  | .zoneName => some (zoneText t.zone)
  | .offset form => some (offsetText form t.zone.east)
  | .looseOffset => none
  | .timestamp => some (timestampText t)

/-- The text of a list of items. -/
def render? (t : LocalTime) : List Item → Option (List Char)
  | [] => some []
  | item :: rest =>
    match itemText? t item with
    | none => none
    | some text => (render? t rest).map (text ++ ·)

/-- The text of a time by a pattern; nothing when the pattern is no pattern or has an item that cannot
be written. -/
def format? (t : LocalTime) (pattern : String) : Option String :=
  (parse? pattern).bind fun items => (render? t items).map String.ofList

end EchoLog.Pattern
