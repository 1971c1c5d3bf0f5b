import EchoLog.Toml.Text
import EchoLog.Toml.Value
/-!
# Numbers, dates and truth values

A scalar without quotes is a run of letters, digits and a few signs, which has to be a number, a date
or time, a truth value or one of the special floats as a whole.  Only a date and a time may be parted
by a space.
-/

namespace EchoLog.Toml

/-- A character of a scalar without quotes. -/
def isScalarChar (c : Char) : Bool :=
  c.isAlphanum || c = '_' || c = '+' || c = '-' || c = '.' || c = ':'

/-- Digits with single underscores between them. -/
def isGrouped (digit : Char → Bool) : List Char → Bool
  | [] => false
  | [c] => digit c
  | c :: '_' :: rest => digit c && isGrouped digit rest
  | c :: rest => digit c && isGrouped digit rest

/-- A text without its underscores. -/
def ungrouped (cs : List Char) : List Char :=
  cs.filter (· ≠ '_')

/-- A sign, true for minus, and what follows it. -/
def splitSign : List Char → Bool × List Char
  | '-' :: rest => (true, rest)
  | '+' :: rest => (false, rest)
  | cs => (false, cs)

/-- Whole numbers as they stand in decimal numbers: grouped digits without a leading zero. -/
def isDecimalWhole (cs : List Char) : Bool :=
  isGrouped Char.isDigit cs && (cs.length = 1 || cs.head? ≠ some '0')

/-- A number with its base in front: hex, octal or binary. -/
def based? : List Char → Option Nat
  | '0' :: 'x' :: rest => if isGrouped (isDigitOf 16) rest then some (digitsValue 16 (ungrouped rest)) else none
  | '0' :: 'o' :: rest => if isGrouped (isDigitOf 8) rest then some (digitsValue 8 (ungrouped rest)) else none
  | '0' :: 'b' :: rest => if isGrouped (isDigitOf 2) rest then some (digitsValue 2 (ungrouped rest)) else none
  | _ => none

/-- An integer of 64 bits. -/
def integer? (cs : List Char) : Option Int :=
  let value? : Option Int :=
    match based? cs with
    | some n => some n
    | none =>
      let (negative, body) := splitSign cs
      if isDecimalWhole body then
        let n : Int := digitsValue 10 (ungrouped body)
        some (if negative then -n else n)
      else none
  value?.filter fun n => -Int.pow 2 63 ≤ n && n < Int.pow 2 63

/-- The exponent that a text after the whole or fractional part denotes; no text denotes zero. -/
def exponent? : List Char → Option Int
  | [] => some 0
  | c :: rest =>
    if c = 'e' || c = 'E' then
      let (negative, body) := splitSign rest
      if isGrouped Char.isDigit body then
        let n : Int := digitsValue 10 (ungrouped body)
        some (if negative then -n else n)
      else none
    else none

/-- Digits and power of ten of a decimal float without sign. -/
def floatParts? (cs : List Char) : Option (Nat × Int) :=
  let inWhole (c : Char) : Bool := c.isDigit || c = '_'
  let whole := cs.takeWhile inWhole
  let rest := cs.dropWhile inWhole
  if !isDecimalWhole whole then none
  else
    match rest with
    | [] => none
    | '.' :: rest =>
      let places := rest.takeWhile inWhole
      if isGrouped Char.isDigit places then
        (exponent? (rest.dropWhile inWhole)).map fun e =>
          (digitsValue 10 (ungrouped (whole ++ places)), e - (ungrouped places).length)
      else none
    | _ => (exponent? rest).map fun e => (digitsValue 10 (ungrouped whole), e)

/-- Whether `digits * 10 ^ power` rounds to more than the largest double: it reaches the midpoint
between that and the next power of two. -/
def overflowsDouble (digits : Nat) (power : Int) : Bool :=
  let size : Int := (Nat.toDigits 10 digits).length + power
  if digits = 0 || size < 300 then false
  else if size > 320 then true
  else
    let bound := Nat.pow 2 1024 - Nat.pow 2 970
    if power ≥ 0 then digits * Nat.pow 10 power.toNat ≥ bound
    else digits ≥ bound * Nat.pow 10 (-power).toNat

/-- Whether a text is a float; positive ones must be finite unless they say `inf`. -/
def isFloat (cs : List Char) : Bool :=
  let (negative, body) := splitSign cs
  if body = "inf".toList || body = "nan".toList then true
  else
    match floatParts? body with
    | none => false
    | some (digits, power) => negative || !overflowsDouble digits power

/-- The number that the first `n` characters spell in decimal, if it lies in a range. -/
def readField (n low high : Nat) (cs : List Char) : Option (Nat × List Char) :=
  let field := cs.take n
  let value := digitsValue 10 field
  if field.length = n && field.all Char.isDigit && low ≤ value && value ≤ high then
    some (value, cs.drop n)
  else none

/-- Whether a year of the common calendar is a leap year. -/
def isCommonLeap (year : Nat) : Bool :=
  year % 4 = 0 && (year % 100 ≠ 0 || year % 400 = 0)

/-- The number of days of a month. -/
def daysInMonth (year month : Nat) : Nat :=
  if month = 2 then (if isCommonLeap year then 29 else 28)
  else if month = 4 || month = 6 || month = 9 || month = 11 then 30
  else 31

/-- What follows a date. -/
def afterDate? (cs : List Char) : Option (List Char) := do
  let (year, cs) ← readField 4 0 9999 cs
  let (month, cs) ← readField 2 1 12 (← Net.readChar '-' cs)
  let (_, cs) ← readField 2 1 (daysInMonth year month) (← Net.readChar '-' cs)
  return cs

/-- What follows a time. -/
def afterTime? (cs : List Char) : Option (List Char) := do
  let (_, cs) ← readField 2 0 23 cs
  let (_, cs) ← readField 2 0 59 (← Net.readChar ':' cs)
  let (_, cs) ← readField 2 0 60 (← Net.readChar ':' cs)
  match cs with
  | '.' :: rest =>
    if (rest.takeWhile Char.isDigit).isEmpty then none else some (rest.dropWhile Char.isDigit)
  | _ => some cs

/-- Whether a text is an offset from universal time, or nothing. -/
def isTimeOffset (cs : List Char) : Bool :=
  match cs with
  | [] => true
  | ['Z'] => true
  | ['z'] => true
  | c :: rest =>
    let after? : Option (List Char) := do
      let (_, cs) ← readField 2 0 23 rest
      let (_, cs) ← readField 2 0 59 (← Net.readChar ':' cs)
      return cs
    (c = '+' || c = '-') && after? = some []

/-- Whether a text is a time with the offset that may follow it. -/
def isTimeAndOffset (cs : List Char) : Bool :=
  (afterTime? cs).any isTimeOffset

/-- Whether a text is a date, a time, or both around a `T`. -/
def isMoment (cs : List Char) : Bool :=
  match afterDate? cs with
  | some [] => true
  | some (c :: rest) => (c = 'T' || c = 't') && isTimeAndOffset rest
  | none => afterTime? cs = some []

/-- A scalar without quotes and the rest of the text. -/
def readScalar (cs : List Char) : Option (Value × List Char) :=
  let word := cs.takeWhile isScalarChar
  let rest := cs.dropWhile isScalarChar
  let text := String.ofList word
  if word = "true".toList then some (.boolean true, rest)
  else if word = "false".toList then some (.boolean false, rest)
  else if afterDate? word = some [] then
    match rest with
    | ' ' :: more =>
      let time := more.takeWhile isScalarChar
      if isTimeAndOffset time then
        some (.moment (text ++ " " ++ String.ofList time), more.dropWhile isScalarChar)
      else some (.moment text, rest)
    | _ => some (.moment text, rest)
  else if isMoment word then some (.moment text, rest)
  else if isFloat word then some (.float text, rest)
  else (integer? word).map fun n => (.integer n, rest)

end EchoLog.Toml
