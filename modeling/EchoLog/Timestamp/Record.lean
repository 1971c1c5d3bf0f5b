import EchoLog.Pattern.Render
/-!
# Timestamp records

A timestamp record is one line of the log: a fixed tag, the time by a pattern, and a newline.
-/

namespace EchoLog.Timestamp

/-- What every timestamp record starts with. -/
def tag : String := "timestamp:"

/-- The record of a time, newline included; nothing when the pattern cannot be written. -/
def record? (t : LocalTime) (pattern : String) : Option String :=
  (Pattern.format? t pattern).map fun text => tag ++ text ++ "\n"

end EchoLog.Timestamp
