import EchoLog.Roster.Workforce
import EchoLog.Settings.Basic
import EchoLog.SharedLog.Basic
/-!
# A run of the service

A service is a log with its tasks, the workforce, the channel on which tasks report what must stop the
service, and a coordinator.  The coordinator waits for whichever comes first: the signal, a fault or
the end of the acceptor.  It then stops everybody, waits for the tasks as long as the settings say,
removes the log file if they say so, and returns.

As in `SharedLog`, an event is the smallest thing that can happen, and `Service.step?` says when it
can and what it does.
-/

namespace EchoLog

/-- A task of the service: tracked under `task`, known to the log by its `seat`. -/
structure Member where
  task : Nat
  seat : Nat
deriving DecidableEq, Repr

/-- Where the coordinator stands; `outcome` is what the service returns if nothing else goes wrong. -/
inductive Coordinator where
  /-- The run has not begun. -/
  | idle
  /-- Waiting for a reason to stop. -/
  | selecting
  /-- Waiting for the tasks. -/
  | draining (outcome : Except Failure Unit)
  /-- Having the log file removed, through the caller at a seat. -/
  | removing (outcome : Except Failure Unit) (seat : Nat)
  | returned (result : Except Failure Unit)

/-- A reason to stop. -/
inductive Reason where
  /-- The signal came. -/
  | signal
  /-- A fault was reported. -/
  | fault
  /-- The acceptor stopped. -/
  | acceptor
deriving DecidableEq, Repr

/-- A service. -/
structure Service where
  settings : Settings
  log : SharedLog
  force : Workforce
  members : List Member := []
  /-- The faults that were reported and not seen, first come first. -/
  faults : List Failure := []
  signalled : Bool := false
  coordinator : Coordinator := .idle

/-- The smallest things that can happen to a service. -/
inductive ServiceEvent where
  /-- The run begins at `now`, on a clock that had run `uptime` seconds at time zero. -/
  | begin (uptime now : Nat)
  /-- Something happens to the log or one of its tasks. -/
  | log (e : Event)
  /-- Somebody outside asks something of the store. -/
  | call (request : Request)
  /-- The acceptor takes a step of its own. -/
  | look
  | takeSlot
  | accept (peer : Endpoint) (now : Nat)
  | acceptFails (cause : IoError)
  | stopAccepting
  /-- A task has ended and reports how. -/
  | finish (task : Nat)
  /-- A task that has ended gives something back. -/
  | retire (task : Nat)
  /-- The signal comes. -/
  | signal
  /-- Somebody who holds the service's handle requests a stop. -/
  | requestStop
  /-- The coordinator sees a reason to stop. -/
  | stop (reason : Reason)
  /-- All tasks are gone. -/
  | drained
  /-- The time for the tasks is over. -/
  | timedOut
  /-- The coordinator has the answer to the removal. -/
  | removed

namespace Service

/-- Adds reports to the operator. -/
def note (s : Service) (notices : List Notice) : Service :=
  { s with log := { s.log with notices := s.log.notices ++ notices } }

/-- How a task of the log has ended; nothing while it has not. -/
def ending? : Task → Option (Except Failure Unit)
  | .session s => s.result?.map fun r => r.map fun _ => ()
  | .writer w =>
    match w.stage with
    | .ended r => some r
    | .broken => some (.ok ())
    | _ => none
  | .caller _ => none

/-- A task reports how it ended: a failure that escalates goes to the coordinator. -/
def report (s : Service) : Except Failure Unit → Service
  | .ok _ => s
  | .error f =>
    if f.escalates s.settings.shutdown.fatalStorageErrors then
      { s.note [.fatal f] with faults := s.faults ++ [f] }
    else s.note [.taskEnded f]

/-- Sets the stop flag and fires everybody's token. -/
def requestStop (s : Service) : Service :=
  { s with
    force := { s.force with roster := s.force.roster.requestStop }
    log := { s.log with seats := s.log.seats.map fun seat => { seat with cancelled := true } } }

/-- A step of the workforce, while the acceptor is being waited for. -/
def withForce (s : Service) (e : WorkStep) : Option Service :=
  match s.coordinator with
  | .selecting => (s.force.step? e).map fun force => { s with force := force }
  | _ => none

/-- Seats a task whose token is the service's. -/
def seat (s : Service) (t : Task) : Service :=
  { s with log := s.log.join t s.force.roster.cancelled }

/-- The run begins: the timestamp writer is started, if it is enabled. -/
def begin (s : Service) (uptime now : Nat) : Service :=
  let started := { s with coordinator := .selecting }
  if s.settings.timestamp.enabled then
    let writer := Timestamp.Writer.start uptime now (1000 * s.settings.timestamp.intervalSeconds)
      s.settings.timestamp.format
    let (task, roster) := s.force.roster.spawn []
    { started.seat (.writer writer) with
      force := { s.force with roster := roster }
      members := s.members ++ [⟨task, s.log.seats.length⟩] }
  else started

/-- The outcome that a reason to stop gives, and the faults that are left to be seen. -/
def outcome? (s : Service) : Reason → Option (Except Failure Unit × List Failure)
  | .signal => if s.signalled then some (.ok (), s.faults) else none
  | .fault =>
    match s.faults with
    | f :: rest => some (.error f, rest)
    | [] => none
  | .acceptor =>
    match s.force.acceptor with
    | .stopped result => some (result, s.faults)
    | _ => none

/-- The coordinator stops everybody. -/
def stop (s : Service) (outcome : Except Failure Unit) (faults : List Failure) : Service :=
  let notices := match outcome with
    | .error f => [.stopping f]
    | .ok _ => []
  let s := (s.note notices).requestStop
  let force := s.force.settleOn .dropped
  { s with
    force := { force with roster := force.roster.close }
    faults := faults
    coordinator := .draining outcome }

/-- The waiting for the tasks is over: late faults are reported, and the log file is to be removed if
the settings say so. -/
def afterDrain (s : Service) (outcome : Except Failure Unit) (notices : List Notice) : Service :=
  let s := { s.note (notices ++ s.faults.map .late) with faults := [] }
  if s.settings.storage.removeOnShutdown then
    { s with
      log := s.log.join (.caller { request := .remove })
      coordinator := .removing outcome s.log.seats.length }
  else { s with coordinator := .returned outcome }

/-- The removal has its answer.  An outcome that is a failure is kept whatever the answer is. -/
def afterRemoval (s : Service) (outcome : Except Failure Unit) : Answer → Service
  | .ok _ => { s with coordinator := .returned outcome }
  | .error f =>
    let result := match outcome with
      | .ok _ => .error f
      | .error first => .error first
    { s.note [.removalFailed f] with coordinator := .returned result }

/-- The answer that the caller at a seat has got. -/
def answerAt? (s : Service) (seat : Nat) : Option Answer :=
  match s.log.task? seat with
  | some (.caller c) => c.answer
  | _ => none

/-- What an event does; nothing when it cannot happen.  Tokens fire only through a stop. -/
def step? (s : Service) : ServiceEvent → Option Service
  | .begin uptime now =>
    match s.coordinator with
    | .idle => some (s.begin uptime now)
    | _ => none
  | .log (.fire _) => none
  | .log e => (s.log.step? e).map fun log => { s with log := log }
  | .call request => some { s with log := s.log.join (.caller { request := request }) }
  | .look => s.withForce .look
  | .takeSlot => s.withForce .takeSlot
  | .accept peer now =>
    (s.withForce (.accept peer now)).map fun after =>
      { after.seat (.session (.start peer (.ofSettings s.settings))) with
        members := s.members ++ [⟨s.force.roster.nextTask, s.log.seats.length⟩] }
  | .acceptFails cause =>
    (s.withForce (.acceptFails cause)).map fun after =>
      if cause.isTransient then after.note [.acceptFailed cause] else after
  | .stopAccepting => s.withForce .leave
  | .finish task => do
    let m ← s.members.find? (·.task = task)
    let result ← ending? (← s.log.task? m.seat)
    let force ← s.force.step? (.finish task)
    return { s.report result with force := force }
  | .retire task => (s.force.step? (.retire task)).map fun force => { s with force := force }
  | .signal => some { s with signalled := true }
  | .requestStop => some s.requestStop
  | .stop reason =>
    match s.coordinator with
    | .selecting => (s.outcome? reason).map fun (outcome, faults) => s.stop outcome faults
    | _ => none
  | .drained =>
    match s.coordinator with
    | .draining outcome =>
      if s.force.roster.isDrained then some (s.afterDrain outcome []) else none
    | _ => none
  | .timedOut =>
    match s.coordinator with
    | .draining outcome =>
      let roster := s.force.roster
      if roster.isDrained then none
      else some (s.afterDrain outcome (.tasksRunning roster.tasks.length :: roster.stragglers))
    | _ => none
  | .removed =>
    match s.coordinator with
    | .removing outcome seat => (s.answerAt? seat).map (s.afterRemoval outcome)
    | _ => none

/-- A run: nothing when one of the events cannot happen in its turn. -/
def run? : Service → List ServiceEvent → Option Service
  | s, [] => some s
  | s, e :: es => (s.step? e).bind fun s => s.run? es

/-- What the service returned. -/
def result? (s : Service) : Option (Except Failure Unit) :=
  match s.coordinator with
  | .returned result => some result
  | _ => none

end Service

end EchoLog
