import EchoLog.SharedLog.Schedule
/-!
# A log while time passes

The clock moves in milliseconds.  While time passes from one moment to another, each tick of a
timestamp writer is handled when it is due, or at once when it already is, and everything that follows
from it happens before the next.  A clock that leaps is time that passes from the moment after the
leap: what came due meanwhile is handled late.
-/

namespace EchoLog.SharedLog

/-- The moment at which the next tick of a writer is handled, from `now` on. -/
def nextTick? (g : SharedLog) (i now : Nat) : Option Nat :=
  (g.writer? i).bind fun w =>
    match w.stage with
    | .waiting => some (max now w.ticker.due)
    | _ => none

/-- Handles the ticks of a writer from `now` to `finish`, at most `fuel` of them. -/
def passFor (i finish : Nat) (time : LocalTime) : (fuel now : Nat) → SharedLog → SharedLog
  | 0, _, g => g
  | fuel + 1, now, g =>
    match g.nextTick? i now with
    | none => g
    | some moment =>
      if moment ≤ finish then
        match g.step? (.tick i moment time) with
        | some g => passFor i finish time fuel moment g.settle
        | none => g
      else g

/-- Time passes from `now` to `finish`, while local clocks show `time`.  A period is at least one
millisecond and a schedule lags at most by the tolerance, which bounds the ticks. -/
def pass (g : SharedLog) (i now finish : Nat) (time : LocalTime) : SharedLog :=
  passFor i finish time (finish - now + Timestamp.tolerance + 2) now g.settle

/-- Time passes until a writer has ended or has handled one more tick. -/
def passToEnd (g : SharedLog) (i now : Nat) (time : LocalTime) : SharedLog :=
  let g := g.settle
  match g.nextTick? i now with
  | some moment => g.pass i now moment time
  | none => g

end EchoLog.SharedLog
