/-!
# Byte strings

The wire, the log file and every packet are byte strings.  A *packet* is a run of bytes that ends in
its only newline; text enters and leaves as UTF-8.
-/

namespace EchoLog

/-- A byte string. -/
abbrev Bytes := List UInt8

/-- The byte that ends a packet. -/
def newline : UInt8 := 10

/-- The UTF-8 bytes of a text. -/
def utf8 (s : String) : Bytes :=
  s.toList.flatMap String.utf8EncodeChar

/-- The text that a byte string spells in UTF-8; nothing when it is ill-formed. -/
def ofUtf8? (b : Bytes) : Option String :=
  String.fromUTF8? ⟨b.toArray⟩

/-- Where the first zero byte stands. -/
def firstNul (b : Bytes) : Option Nat :=
  b.findIdx? (· == 0)

/-- Whether a byte string ends with `tail`. -/
def endsWith (b tail : Bytes) : Bool :=
  tail.isSuffixOf b

end EchoLog
