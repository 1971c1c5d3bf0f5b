import EchoLog.Service.Basic
import EchoLog.SharedLog.Clock
/-!
# A service left to itself

`Service.settle` lets everything happen that needs nothing from outside: first in the log and its
tasks, then in the workforce, then in the coordinator.  The drain times out only when nothing else can
happen any more.
-/

namespace EchoLog.Service

/-- The events of the workforce and the coordinator that need nothing from outside; `listener` is the
error that accepting meets, if it does. -/
def ownEvents (s : Service) (listener : Option IoError) : List ServiceEvent :=
  let tasks := s.force.roster.tasks.map (·.id)
  tasks.map .finish ++ tasks.map .retire ++
    [.stopAccepting, .look, .takeSlot] ++ listener.toList.map .acceptFails ++
    [.stop .signal, .stop .fault, .stop .acceptor, .drained, .removed]

/-- One event that needs nothing from outside. -/
def advance? (s : Service) (listener : Option IoError) : Option Service :=
  match s.log.advance? with
  | some log => some { s with log := log }
  | none => ((s.ownEvents listener).findSome? s.step?) <|> s.step? .timedOut

/-- Lets events happen that need nothing from outside, at most `fuel` of them. -/
def settleFor (listener : Option IoError) : (fuel : Nat) → Service → Service
  | 0, s => s
  | fuel + 1, s =>
    match s.advance? listener with
    | some s => settleFor listener fuel s
    | none => s

/-- Lets everything happen that needs nothing from outside.  Each task takes a bounded number of
steps, and so do the acceptor and the coordinator, which seats one task more. -/
def settle (s : Service) (listener : Option IoError := none) : Service :=
  settleFor listener (s.log.patience + 8 * s.force.roster.tasks.length + 64) s

/-- Somebody outside asks something of the store: the service and the answer. -/
def ask (s : Service) (request : Request) (listener : Option IoError := none) :
    Service × Option Answer :=
  let seat := s.log.seats.length
  let s := ((s.step? (.call request)).getD s).settle listener
  (s, s.answerAt? seat)

/-- The seat of the timestamp writer. -/
def writerSeat? (s : Service) : Option Nat :=
  (s.members.find? fun m => (s.log.writer? m.seat).isSome).map (·.seat)

/-- The clock leaps to `now`, while local clocks show `time`: a tick that is due is handled, and
everything that follows from it happens. -/
def leap (s : Service) (now : Nat) (time : LocalTime) (listener : Option IoError := none) : Service :=
  let s := s.settle listener
  match s.writerSeat? with
  | none => s
  | some seat => { s with log := s.log.pass seat now now time }.settle listener

end EchoLog.Service
