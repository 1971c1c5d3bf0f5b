/-!
# Time patterns

A pattern is text in which `%` starts a field of a time.  `Pattern.parse?` gives the items of a
pattern, or nothing when a field is unknown.  Fields with a number take a mark for their padding
after the percent sign: `-` for none, `_` for spaces and `0` for zeros.
-/

namespace EchoLog.Pattern

/-- A field that is a number. -/
inductive Number where
  | year
  | century
  | yearOfCentury
  | isoYear
  | isoYearOfCentury
  | quarter
  | month
  | day
  | weekFromSunday
  | weekFromMonday
  | isoWeek
  | daysFromSunday
  | weekdayFromMonday
  | ordinal
  | hour
  | hour12
  | minute
  | second
  | nanosecond
  | unixSeconds
deriving DecidableEq, Repr

/-- What fills a number up to its width. -/
inductive Pad where
  | none
  | zero
  | space
deriving DecidableEq, Repr

/-- How the zone's distance from Greenwich is written. -/
inductive OffsetForm where
  /-- Hours and minutes, `+0130`. -/
  | plain
  /-- Hours and minutes with a colon. -/
  | colon
  /-- Hours, minutes and seconds with colons. -/
  | seconds
  /-- Hours alone. -/
  | hours
deriving DecidableEq, Repr

/-- An item of a pattern. -/
inductive Item where
  | literal (c : Char)
  | number (field : Number) (pad : Pad)
  | shortMonth
  | longMonth
  | shortWeekday
  | longWeekday
  | lowerHalf
  | upperHalf
  /-- A fraction of a second with as many digits as it needs by threes, or nothing. -/
  | fraction
  /-- A fraction of a second with a point and a given number of digits. -/
  | pointFraction (digits : Nat)
  /-- The digits of a fraction alone. -/
  | bareFraction (digits : Nat)
  | zoneName
  | offset (form : OffsetForm)
  /-- An offset as it may be read, with parts left out: nothing can be written for it. -/
  | looseOffset
  /-- A whole time, `2001-07-08T00:34:60.026490+09:30`. -/
  | timestamp
deriving DecidableEq, Repr

/-- The number field of a letter and its usual padding. -/
def numberOf? : Char → Option (Number × Pad)
  | 'C' => some (.century, .zero)
  | 'G' => some (.isoYear, .zero)
  | 'H' => some (.hour, .zero)
  | 'I' => some (.hour12, .zero)
  | 'M' => some (.minute, .zero)
  | 'S' => some (.second, .zero)
  | 'U' => some (.weekFromSunday, .zero)
  | 'V' => some (.isoWeek, .zero)
  | 'W' => some (.weekFromMonday, .zero)
  | 'Y' => some (.year, .zero)
  | 'd' => some (.day, .zero)
  | 'e' => some (.day, .space)
  | 'f' => some (.nanosecond, .zero)
  | 'g' => some (.isoYearOfCentury, .zero)
  | 'j' => some (.ordinal, .zero)
  | 'k' => some (.hour, .space)
  | 'l' => some (.hour12, .space)
  | 'm' => some (.month, .zero)
  | 'q' => some (.quarter, .none)
  | 's' => some (.unixSeconds, .none)
  | 'u' => some (.weekdayFromMonday, .none)
  | 'w' => some (.daysFromSunday, .none)
  | 'y' => some (.yearOfCentury, .zero)
  | _ => none

/-- The item of a letter with its usual padding. -/
def numberItem? (c : Char) : Option Item :=
  (numberOf? c).map fun (field, pad) => .number field pad

/-- The padding that a mark asks for. -/
def padOf? : Char → Option Pad
  | '-' => some .none
  | '_' => some .space
  | '0' => some .zero
  | _ => none

/-- Month, day and year of the century, parted by slashes. -/
def shortDate : List Item :=
  [.number .month .zero, .literal '/', .number .day .zero, .literal '/',
    .number .yearOfCentury .zero]

/-- Year, month and day, parted by hyphens. -/
def isoDate : List Item :=
  [.number .year .zero, .literal '-', .number .month .zero, .literal '-', .number .day .zero]

/-- Hour and minute. -/
def hourMinute : List Item :=
  [.number .hour .zero, .literal ':', .number .minute .zero]

/-- Hour, minute and second. -/
def clock : List Item :=
  hourMinute ++ [.literal ':', .number .second .zero]

/-- Hour, minute and second of the half day. -/
def clock12 : List Item :=
  [.number .hour12 .zero, .literal ':', .number .minute .zero, .literal ':',
    .number .second .zero, .literal ' ', .upperHalf]

/-- Weekday, month, day, time and year. -/
def dateAndTime : List Item :=
  [.shortWeekday, .literal ' ', .shortMonth, .literal ' ', .number .day .space, .literal ' '] ++
    clock ++ [.literal ' ', .number .year .zero]

/-- Day, month name and year, parted by hyphens. -/
def namedDate : List Item :=
  [.number .day .space, .literal '-', .shortMonth, .literal '-', .number .year .zero]

/-- The items of a letter after a percent sign that is no number. -/
def letterItems? : Char → Option (List Item)
  | 'A' => some [.longWeekday]
  | 'B' => some [.longMonth]
  | 'D' => some shortDate
  | 'F' => some isoDate
  | 'P' => some [.lowerHalf]
  | 'R' => some hourMinute
  | 'T' => some clock
  | 'X' => some clock
  | 'Z' => some [.zoneName]
  | 'a' => some [.shortWeekday]
  | 'b' => some [.shortMonth]
  | 'c' => some dateAndTime
  | 'h' => some [.shortMonth]
  | 'n' => some [.literal '\n']
  | 'p' => some [.upperHalf]
  | 'r' => some clock12
  | 't' => some [.literal '\t']
  | 'v' => some namedDate
  | 'x' => some shortDate
  | 'z' => some [.offset .plain]
  | '+' => some [.timestamp]
  | '%' => some [.literal '%']
  | _ => none

/-- The items of the field after a percent sign and the number of characters that spell it. -/
def field? : List Char → Option (List Item × Nat)
  | '#' :: 'z' :: _ => some ([.looseOffset], 2)
  | ':' :: ':' :: ':' :: 'z' :: _ => some ([.offset .hours], 4)
  | ':' :: ':' :: 'z' :: _ => some ([.offset .seconds], 3)
  | ':' :: 'z' :: _ => some ([.offset .colon], 2)
  | '.' :: '3' :: 'f' :: _ => some ([.pointFraction 3], 3)
  | '.' :: '6' :: 'f' :: _ => some ([.pointFraction 6], 3)
  | '.' :: '9' :: 'f' :: _ => some ([.pointFraction 9], 3)
  | '.' :: 'f' :: _ => some ([.fraction], 2)
  | '3' :: 'f' :: _ => some ([.bareFraction 3], 2)
  | '6' :: 'f' :: _ => some ([.bareFraction 6], 2)
  | '9' :: 'f' :: _ => some ([.bareFraction 9], 2)
  | c :: rest =>
    match padOf? c with
    | some pad =>
      match rest with
      | letter :: _ => (numberOf? letter).map fun (field, _) => ([.number field pad], 2)
      | [] => none
    | none =>
      match numberItem? c with
      | some item => some ([item], 1)
      | none => (letterItems? c).map fun items => (items, 1)
  | [] => none

/-- The items of a pattern given as characters. -/
def itemsOf? : List Char → Option (List Item)
  | [] => some []
  | c :: rest =>
    if c = '%' then
      match field? rest with
      | none => none
      | some (items, length) => (itemsOf? (rest.drop length)).map (items ++ ·)
    else (itemsOf? rest).map (.literal c :: ·)
termination_by cs => cs.length
decreasing_by all_goals simp only [List.length_cons, List.length_drop]; omega

/-- The items of a pattern; nothing when a field is unknown or cut short. -/
def parse? (pattern : String) : Option (List Item) :=
  itemsOf? pattern.toList

end EchoLog.Pattern
