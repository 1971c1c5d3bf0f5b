/-!
# Limits

The largest values that the service accepts.
-/

namespace EchoLog.Limits

/-- The most worker slots a service can have. -/
def connections : Nat := Nat.pow 2 61 - 1

/-- The most bytes taken from a socket at once: one mebibyte. -/
def chunkSize : Nat := 1024 * 1024

/-- The longest time between two timestamp records, in seconds: one day. -/
def timestampInterval : Nat := 24 * 60 * 60

end EchoLog.Limits
