import EchoLog.Roster.Basic
/-!
# Acceptor and workers

The acceptor takes a worker slot, waits for a connection and hands both to a new worker, over and
over.  A worker holds its slot and its registration; when it has ended, by whatever cause, it gives
back the slot first and the registration after it, and then it is gone.  Every one of these is a step
of its own, so other steps can come between.
-/

namespace EchoLog

/-- Where the acceptor stands. -/
inductive Acceptor where
  /-- About to look at the stop flag. -/
  | looking
  | awaitingSlot
  | awaitingPeer (permit : Nat)
  | stopped (result : Except Failure Unit)
  /-- Abandoned in whatever it was doing. -/
  | dropped

/-- The permit that the acceptor holds. -/
def Acceptor.permit? : Acceptor → Option Nat
  | .awaitingPeer permit => some permit
  | _ => none

/-- The acceptor, and the roster that it shares with the workers. -/
structure Workforce where
  roster : Roster
  acceptor : Acceptor := .looking

/-- A step of the acceptor or of a worker. -/
inductive WorkStep where
  /-- The acceptor looks at the stop flag. -/
  | look
  /-- The acceptor gets a slot. -/
  | takeSlot
  /-- A connection is accepted. -/
  | accept (peer : Endpoint) (now : Nat)
  /-- Accepting fails. -/
  | acceptFails (cause : IoError)
  /-- The acceptor sees the token. -/
  | leave
  /-- The acceptor is abandoned. -/
  | abandon
  /-- A worker has ended. -/
  | finish (task : Nat)
  /-- A worker that has ended gives back what it gives back next, or is gone. -/
  | retire (task : Nat)
  /-- A stop is requested. -/
  | requestStop
deriving DecidableEq, Repr

namespace Workforce

/-- The acceptor gives its slot back and stands elsewhere. -/
def settleOn (w : Workforce) (a : Acceptor) : Workforce :=
  match w.acceptor.permit? with
  | some permit => ⟨w.roster.release permit, a⟩
  | none => ⟨w.roster, a⟩

/-- What a step does; nothing when it cannot be taken.  The acceptor looks at the token before it
looks at anything else. -/
def step? (w : Workforce) : WorkStep → Option Workforce
  | .look =>
    match w.acceptor with
    | .looking =>
      some { w with acceptor := if w.roster.stopping then .stopped (.ok ()) else .awaitingSlot }
    | _ => none
  | .takeSlot =>
    match w.acceptor with
    | .awaitingSlot =>
      if w.roster.cancelled then none
      else w.roster.acquire?.map fun (permit, roster) => ⟨roster, .awaitingPeer permit⟩
    | _ => none
  | .accept peer now =>
    match w.acceptor with
    | .awaitingPeer permit =>
      if w.roster.cancelled then none
      else
        let (session, roster) := w.roster.register peer now
        some ⟨(roster.spawn [.slot permit, .session session]).2, .looking⟩
    | _ => none
  | .acceptFails cause =>
    match w.acceptor with
    | .awaitingPeer _ =>
      if w.roster.cancelled then none
      else if cause.isTransient then some (w.settleOn .looking)
      else some (w.settleOn (.stopped (.error (.server (.accept cause)))))
    | _ => none
  | .leave =>
    if w.roster.cancelled then
      match w.acceptor with
      | .awaitingSlot => some (w.settleOn (.stopped (.ok ())))
      | .awaitingPeer _ => some (w.settleOn (.stopped (.ok ())))
      | _ => none
    else none
  | .abandon => some (w.settleOn .dropped)
  | .finish task =>
    match w.roster.task? task with
    | some t => if t.ended then none else some { w with roster := w.roster.finish task }
    | none => none
  | .retire task => (w.roster.retire? task).map fun roster => { w with roster := roster }
  | .requestStop => some { w with roster := w.roster.requestStop }

/-- A run: nothing when one of the steps cannot be taken in its turn. -/
def run? : Workforce → List WorkStep → Option Workforce
  | w, [] => some w
  | w, e :: es => (w.step? e).bind fun w => w.run? es

end Workforce

end EchoLog
