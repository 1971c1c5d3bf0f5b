/-!
# Network addresses

An endpoint is an IP address and a port.  This module holds the types and their canonical text:
dotted quads, IPv6 groups in lower-case hex with the longest run of zero groups written `::`, and
IPv6 endpoints in square brackets.  Reading addresses is in `EchoLog.Net.Resolve`.
-/

namespace EchoLog

/-- An IPv4 address. -/
structure Ipv4 where
  a : UInt8
  b : UInt8
  c : UInt8
  d : UInt8
deriving DecidableEq, Repr

/-- An IPv6 address: eight groups of sixteen bits. -/
structure Ipv6 where
  groups : List UInt16
  eight : groups.length = 8
deriving DecidableEq, Repr

/-- An IP address of either family. -/
inductive IpAddress where
  | v4 (address : Ipv4)
  | v6 (address : Ipv6)
deriving DecidableEq, Repr

/-- An address to listen on or a peer; `scope` is zero unless an IPv6 zone was given. -/
structure Endpoint where
  ip : IpAddress
  port : UInt16
  scope : UInt32 := 0
deriving DecidableEq, Repr

/-- The endpoint `a.b.c.d:port`. -/
def Endpoint.quad (a b c d : UInt8) (port : UInt16) : Endpoint :=
  ⟨.v4 ⟨a, b, c, d⟩, port, 0⟩

/-- The numerals of `n` in `base`, lower-case. -/
def numeral (base n : Nat) : String :=
  String.ofList (Nat.toDigits base n)

namespace Ipv4

/-- The dotted quad. -/
def text (q : Ipv4) : String :=
  String.intercalate "." ([q.a, q.b, q.c, q.d].map fun x => numeral 10 x.toNat)

/-- The quad as two sixteen-bit groups, high group first. -/
def groups (q : Ipv4) : List UInt16 :=
  [q.a.toUInt16 * 256 + q.b.toUInt16, q.c.toUInt16 * 256 + q.d.toUInt16]

/-- The quad that two sixteen-bit groups spell. -/
def ofGroups (hi lo : UInt16) : Ipv4 :=
  ⟨(hi / 256).toUInt8, (hi % 256).toUInt8, (lo / 256).toUInt8, (lo % 256).toUInt8⟩

end Ipv4

namespace Ipv6

/-- The state of the search for the longest run of zero groups: the run being read and the longest
one so far, each as its start and length. -/
structure ZeroRun where
  current : Nat × Nat := (0, 0)
  longest : Nat × Nat := (0, 0)

/-- One group further in the search.  A later run replaces the longest only when it is longer, so
the first of two equal runs is kept. -/
def ZeroRun.step (z : ZeroRun) (index : Nat) (group : UInt16) : ZeroRun :=
  if group = 0 then
    let start := if z.current.2 = 0 then index else z.current.1
    let current := (start, z.current.2 + 1)
    ⟨current, if current.2 > z.longest.2 then current else z.longest⟩
  else
    ⟨(0, 0), z.longest⟩

/-- Start and length of the longest run of zero groups. -/
def longestZeroRun (groups : List UInt16) : Nat × Nat :=
  (groups.zipIdx.foldl (fun z (g, i) => z.step i g) ({} : ZeroRun)).longest

/-- Groups in hex, parted by colons. -/
def groupsText (groups : List UInt16) : String :=
  String.intercalate ":" (groups.map fun g => numeral 16 g.toNat)

/-- The canonical text: an embedded IPv4 address keeps its dotted quad, otherwise the longest run of
at least two zero groups is written `::`. -/
def text (a : Ipv6) : String :=
  match a.groups with
  | [0, 0, 0, 0, 0, 0xffff, hi, lo] => "::ffff:" ++ (Ipv4.ofGroups hi lo).text
  | groups =>
    let (start, length) := longestZeroRun groups
    if length > 1 then
      groupsText (groups.take start) ++ "::" ++ groupsText (groups.drop (start + length))
    else
      groupsText groups

end Ipv6

namespace Endpoint

/-- Whether the endpoint is an IPv6 one. -/
def isV6 (e : Endpoint) : Bool :=
  match e.ip with
  | .v4 _ => false
  | .v6 _ => true

/-- The text `host:port`, with IPv6 hosts in brackets. -/
def text (e : Endpoint) : String :=
  let port := numeral 10 e.port.toNat
  match e.ip with
  | .v4 q => q.text ++ ":" ++ port
  | .v6 a =>
    let zone := if e.scope = 0 then "" else "%" ++ numeral 10 e.scope.toNat
    "[" ++ a.text ++ zone ++ "]:" ++ port

end Endpoint

end EchoLog
