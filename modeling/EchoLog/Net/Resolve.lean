import EchoLog.IoError
import EchoLog.Net.Address
/-!
# Reading addresses

`Endpoint.ofText?` reads the strict form of an endpoint (`1.2.3.4:80`, `[::1]:80`).  `Endpoint.resolve`
is what a listen address or a server address goes through: the strict form first, and otherwise the
part before the last colon as a numeric host and the part after it as the port.
-/

namespace EchoLog

/-- The value of `c` as a digit of `base`. -/
def digitValue? (base : Nat) (c : Char) : Option Nat :=
  let value? :=
    if '0' ≤ c ∧ c ≤ '9' then some (c.toNat - 48)
    else if 'a' ≤ c ∧ c ≤ 'z' then some (c.toNat - 87)
    else if 'A' ≤ c ∧ c ≤ 'Z' then some (c.toNat - 55)
    else none
  value?.filter (· < base)

/-- Whether `c` is a digit of `base`. -/
def isDigitOf (base : Nat) (c : Char) : Bool :=
  (digitValue? base c).isSome

/-- The number that digits of `base` spell. -/
def digitsValue (base : Nat) (digits : List Char) : Nat :=
  digits.foldl (fun n c => base * n + (digitValue? base c).getD 0) 0

namespace Net

/-- How a number inside an address may be written. -/
structure NumberForm where
  base : Nat
  /-- The most digits allowed. -/
  width : Option Nat
  /-- Whether further digits may follow a leading zero. -/
  leadingZero : Bool
  /-- The largest value. -/
  largest : Nat

/-- Reads the longest run of digits; nothing when the run breaks the form. -/
def readNumber (form : NumberForm) (cs : List Char) : Option (Nat × List Char) :=
  let digits := cs.takeWhile (isDigitOf form.base)
  let value := digitsValue form.base digits
  let tooWide := form.width.any (· < digits.length)
  let zeroLed := !form.leadingZero && digits.head? = some '0' && digits.length > 1
  if digits.isEmpty || tooWide || zeroLed || value > form.largest then none
  else some (value, cs.dropWhile (isDigitOf form.base))

/-- A byte of a dotted quad. -/
def octetForm : NumberForm := ⟨10, some 3, false, 255⟩

/-- A group of an IPv6 address. -/
def groupForm : NumberForm := ⟨16, some 4, true, 65535⟩

/-- A port. -/
def portForm : NumberForm := ⟨10, none, true, 65535⟩

/-- An IPv6 zone number. -/
def scopeForm : NumberForm := ⟨10, none, true, 4294967295⟩

/-- Reads one given character. -/
def readChar (c : Char) : List Char → Option (List Char)
  | [] => none
  | x :: rest => if x = c then some rest else none

/-- Reads a dotted quad. -/
def readQuad (cs : List Char) : Option (Ipv4 × List Char) := do
  let (a, cs) ← readNumber octetForm cs
  let (b, cs) ← readNumber octetForm (← readChar '.' cs)
  let (c, cs) ← readNumber octetForm (← readChar '.' cs)
  let (d, cs) ← readNumber octetForm (← readChar '.' cs)
  return (⟨a.toUInt8, b.toUInt8, c.toUInt8, d.toUInt8⟩, cs)

/-- Groups of an IPv6 address, the rest of the text, and whether a dotted quad ended them. -/
structure Groups where
  groups : List UInt16
  quad : Bool
  rest : List Char

/-- Reads at most `left` groups parted by colons.  A dotted quad stands for two groups and ends the
list; a colon that no group follows is not taken. -/
def readGroups : (left : Nat) → (first : Bool) → List Char → Groups
  | 0, _, cs => ⟨[], false, cs⟩
  | left + 1, first, cs =>
    match if first then some cs else readChar ':' cs with
    | none => ⟨[], false, cs⟩
    | some body =>
      match if left ≥ 1 then readQuad body else none with
      | some (quad, rest) => ⟨quad.groups, true, rest⟩
      | none =>
        match readNumber groupForm body with
        | none => ⟨[], false, cs⟩
        | some (group, rest) =>
          let more := readGroups left false rest
          ⟨group.toUInt16 :: more.groups, more.quad, more.rest⟩

/-- Reads an IPv6 address: eight groups, or fewer around one `::` that stands for at least one zero
group.  A dotted quad may only end the address. -/
def readIpv6 (cs : List Char) : Option (Ipv6 × List Char) :=
  let head := readGroups 8 true cs
  if h : head.groups.length = 8 then some (⟨head.groups, h⟩, head.rest)
  else if head.quad then none
  else
    match head.rest with
    | ':' :: ':' :: rest =>
      let tail := readGroups (7 - head.groups.length) true rest
      let zeros := List.replicate (8 - head.groups.length - tail.groups.length) (0 : UInt16)
      let groups := head.groups ++ zeros ++ tail.groups
      if h : groups.length = 8 then some (⟨groups, h⟩, tail.rest) else none
    | _ => none

/-- Reads `%zone`, or no zone. -/
def readScope (cs : List Char) : Option (UInt32 × List Char) :=
  match cs with
  | '%' :: rest => (readNumber scopeForm rest).map fun (n, r) => (n.toUInt32, r)
  | _ => some (0, cs)

/-- Reads `1.2.3.4:80`. -/
def readQuadEndpoint (cs : List Char) : Option (Endpoint × List Char) := do
  let (quad, cs) ← readQuad cs
  let (port, cs) ← readNumber portForm (← readChar ':' cs)
  return (⟨.v4 quad, port.toUInt16, 0⟩, cs)

/-- Reads `[::1]:80`. -/
def readBracketEndpoint (cs : List Char) : Option (Endpoint × List Char) := do
  let (address, cs) ← readIpv6 (← readChar '[' cs)
  let (scope, cs) ← readScope cs
  let (port, cs) ← readNumber portForm (← readChar ':' (← readChar ']' cs))
  return (⟨.v6 address, port.toUInt16, scope⟩, cs)

/-- What a reader gives when it takes the whole text. -/
def whole {α : Type} (read : List Char → Option (α × List Char)) (cs : List Char) : Option α :=
  match read cs with
  | some (x, []) => some x
  | _ => none

/-- The parts around the last occurrence of `c`. -/
def splitLast (c : Char) : List Char → Option (List Char × List Char)
  | [] => none
  | x :: xs =>
    match splitLast c xs with
    | some (before, after) => some (x :: before, after)
    | none => if x = c then some ([], xs) else none

/-- A port as a plain unsigned number: digits, with one optional plus sign. -/
def port? (cs : List Char) : Option UInt16 :=
  let digits := match cs with
    | '+' :: rest => rest
    | _ => cs
  (whole (readNumber portForm) digits).map Nat.toUInt16

/-- One part of a numeric IPv4 host: `0x` starts hex, a leading zero starts octal. -/
def readHostPart (cs : List Char) : Option (Nat × List Char) :=
  match cs with
  | '0' :: 'x' :: rest => readNumber ⟨16, none, true, 4294967295⟩ rest
  | '0' :: 'X' :: rest => readNumber ⟨16, none, true, 4294967295⟩ rest
  | '0' :: _ => readNumber ⟨8, none, true, 4294967295⟩ cs
  | _ => readNumber ⟨10, none, true, 4294967295⟩ cs

/-- Reads up to `left` more parts of a numeric IPv4 host.  Each part but the last is one byte; the
last fills the bytes that are left. -/
def readHostParts : (left : Nat) → (sofar : Nat) → List Char → Option Nat
  | 0, _, _ => none
  | left + 1, sofar, cs =>
    match readHostPart cs with
    | none => none
    | some (value, []) =>
      let places := Nat.pow 256 (left + 1)
      if value < places then some (sofar * places + value) else none
    | some (value, '.' :: rest) =>
      if value < 256 then readHostParts left (sofar * 256 + value) rest else none
    | some _ => none

/-- The IPv4 address of a 32-bit number. -/
def quadOfNat (n : Nat) : Ipv4 :=
  ⟨(n / 16777216).toUInt8, (n / 65536 % 256).toUInt8, (n / 256 % 256).toUInt8, (n % 256).toUInt8⟩

/-- A host given as a number: one to four parts of an IPv4 address, or an IPv6 address with an
optional zone. -/
def numericHost? (cs : List Char) : Option (IpAddress × UInt32) :=
  match readHostParts 4 0 cs with
  | some n => some (.v4 (quadOfNat n), 0)
  | none =>
    whole (fun cs => do
      let (address, cs) ← readIpv6 cs
      let (scope, cs) ← readScope cs
      return ((IpAddress.v6 address, scope), cs)) cs

/-- Why a host that is no number is refused: it is unknown, or it cannot be asked for. -/
def unknownHost (host : List Char) : IoError :=
  if host.contains '\x00' then .zeroByteInName
  else .custom .other "failed to lookup address information: Name or service not known"

end Net

namespace Endpoint

/-- The strict form of an endpoint. -/
def ofText? (s : String) : Option Endpoint :=
  Net.whole Net.readQuadEndpoint s.toList <|> Net.whole Net.readBracketEndpoint s.toList

/-- The endpoint that `address` names.  Names of hosts are not looked up: a host that is no number is
unknown. -/
def resolve (address : String) : Except IoError Endpoint :=
  match ofText? address with
  | some e => .ok e
  | none =>
    match Net.splitLast ':' address.toList with
    | none => .error (.custom .invalidInput "invalid socket address")
    | some (host, port) =>
      match Net.port? port with
      | none => .error (.custom .invalidInput "invalid port value")
      | some port =>
        match Net.numericHost? host with
        | some (ip, scope) => .ok ⟨ip, port, scope⟩
        | none => .error (Net.unknownHost host)

end Endpoint

end EchoLog
