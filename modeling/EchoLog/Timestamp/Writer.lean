import EchoLog.Bytes
import EchoLog.Failure
import EchoLog.Timestamp.Record
/-!
# The timestamp writer

A task that appends a timestamp record once per period until it is cancelled.  Times are milliseconds
on a clock that never goes back.  A tick that is handled on time keeps the schedule; one that comes
too late moves it, and the next is due one period after the moment it was handled.
-/

namespace EchoLog.Timestamp

/-- The end of the clock, in seconds. -/
def clockEnd : Nat := Nat.pow 2 63 - 1

/-- How late a tick may be and still keep the schedule, in milliseconds. -/
def tolerance : Nat := 5

/-- A schedule of ticks. -/
structure Ticker where
  /-- When the next tick is due. -/
  due : Nat
  period : Nat
deriving DecidableEq, Repr

/-- The schedule after a tick that was handled at `now`. -/
def Ticker.after (t : Ticker) (now : Nat) : Ticker :=
  if now > t.due + tolerance then { t with due := now + t.period }
  else { t with due := t.due + t.period }

/-- Where a timestamp writer stands. -/
inductive WriterStage where
  /-- Waiting for the next tick or the token. -/
  | waiting
  /-- Having a record stored. -/
  | storing (record : Bytes)
  | ended (result : Except Failure Unit)
  /-- It broke off without a result: its period is zero, or its pattern cannot be written. -/
  | broken

/-- A timestamp writer. -/
structure Writer where
  format : String
  ticker : Ticker
  stage : WriterStage := .waiting

namespace Writer

/-- A writer that starts at `now`.  The first record is due one full period later.  A period that
reaches past the end of the clock is refused; `uptime` is how many seconds the clock had run at time
zero. -/
def start (uptime now period : Nat) (format : String) : Writer :=
  let stage :=
    if uptime * 1000 + now + period ≥ (clockEnd + 1) * 1000 then
      .ended (.error (.config (.periodOutOfRange period)))
    else if period = 0 then .broken
    else .waiting
  ⟨format, ⟨now + period, period⟩, stage⟩

/-- The tick that is due is handled at `now`, when local clocks show `t`. -/
def tick (w : Writer) (now : Nat) (t : LocalTime) : Writer :=
  let stage := match record? t w.format with
    | some record => .storing (utf8 record)
    | none => .broken
  { w with ticker := w.ticker.after now, stage := stage }

/-- The store answered: a failure ends the writer. -/
def stored (w : Writer) : Except Failure Bytes → Writer
  | .ok _ => { w with stage := .waiting }
  | .error f => { w with stage := .ended (.error f) }

/-- The token was seen. -/
def leave (w : Writer) : Writer :=
  { w with stage := .ended (.ok ()) }

/-- Whether the writer has come to an end. -/
def isFinished (w : Writer) : Bool :=
  match w.stage with
  | .ended _ => true
  | .broken => true
  | _ => false

end Writer

end EchoLog.Timestamp
