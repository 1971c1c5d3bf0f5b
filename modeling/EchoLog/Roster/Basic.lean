import EchoLog.Limits
import EchoLog.Notice
/-!
# The roster

The bookkeeping of one run of the service: worker slots, registered sessions, tracked tasks, the stop
flag and the cancellation token.  A tracked task holds guards, its slot and its registration, and
gives them back one after another when it has ended, whatever ended it.
-/

namespace EchoLog

/-- A session as the registry shows it. -/
structure Registration where
  id : Nat
  peer : Endpoint
  acceptedAt : Nat
deriving DecidableEq, Repr

/-- Something that a task gives back when it ends. -/
inductive Guard where
  | slot (permit : Nat)
  | session (id : Nat)
deriving DecidableEq, Repr

/-- A tracked task, with its guards in the order in which it gives them back. -/
structure TrackedTask where
  id : Nat
  guards : List Guard := []
  ended : Bool := false
deriving DecidableEq, Repr

/-- The bookkeeping of a run. -/
structure Roster where
  /-- The worker slots that nobody holds. -/
  free : Nat
  /-- The permits of the slots that somebody holds. -/
  held : List Nat := []
  nextPermit : Nat := 0
  sessions : List Registration := []
  nextSession : Nat := 0
  /-- The tracked tasks that have not gone. -/
  tasks : List TrackedTask := []
  nextTask : Nat := 0
  /-- Whether the tracker may report that all tasks have gone. -/
  closed : Bool := false
  stopping : Bool := false
  /-- Whether the token has fired; all its clones are one token. -/
  cancelled : Bool := false
deriving DecidableEq, Repr

namespace Roster

/-- The roster of a run with so many worker slots; more than the limit cannot be. -/
def start? (slots : Nat) : Option Roster :=
  if slots ≤ Limits.connections then some { free := slots } else none

/-- Registers a session: its id and the roster after it. -/
def register (r : Roster) (peer : Endpoint) (now : Nat) : Nat × Roster :=
  (r.nextSession,
    { r with sessions := r.sessions ++ [⟨r.nextSession, peer, now⟩]
             nextSession := r.nextSession + 1 })

/-- Ends the registration of a session. -/
def deregister (r : Roster) (id : Nat) : Roster :=
  { r with sessions := r.sessions.filter (·.id ≠ id) }

/-- The number of registered sessions. -/
def active (r : Roster) : Nat :=
  r.sessions.length

/-- The registered sessions, oldest first. -/
def remaining (r : Roster) : List Registration :=
  r.sessions.mergeSort fun a b => a.acceptedAt ≤ b.acceptedAt

/-- What is reported about the sessions that outlive a drain. -/
def stragglers (r : Roster) : List Notice :=
  r.remaining.map fun s => .straggler s.peer

/-- Fires the token. -/
def cancel (r : Roster) : Roster :=
  { r with cancelled := true }

/-- Sets the stop flag and fires the token. -/
def requestStop (r : Roster) : Roster :=
  { r with stopping := true }.cancel

/-- Takes a worker slot, if one is free: its permit and the roster after it. -/
def acquire? (r : Roster) : Option (Nat × Roster) :=
  match r.free with
  | 0 => none
  | free + 1 =>
    some (r.nextPermit,
      { r with free := free, held := r.held ++ [r.nextPermit], nextPermit := r.nextPermit + 1 })

/-- Gives a worker slot back, if the permit is held. -/
def release (r : Roster) (permit : Nat) : Roster :=
  if permit ∈ r.held then { r with free := r.free + 1, held := r.held.erase permit } else r

/-- Starts tracking a task that holds some guards: its id and the roster after it. -/
def spawn (r : Roster) (guards : List Guard) : Nat × Roster :=
  (r.nextTask,
    { r with tasks := r.tasks ++ [{ id := r.nextTask, guards := guards }]
             nextTask := r.nextTask + 1 })

/-- The tracked task with an id. -/
def task? (r : Roster) (id : Nat) : Option TrackedTask :=
  r.tasks.find? (·.id = id)

/-- Changes the tracked task with an id. -/
def setTask (r : Roster) (id : Nat) (f : TrackedTask → TrackedTask) : Roster :=
  { r with tasks := r.tasks.map fun t => if t.id = id then f t else t }

/-- Forgets the tracked task with an id. -/
def forget (r : Roster) (id : Nat) : Roster :=
  { r with tasks := r.tasks.filter (·.id ≠ id) }

/-- A task has ended: it starts giving back. -/
def finish (r : Roster) (id : Nat) : Roster :=
  r.setTask id fun t => { t with ended := true }

/-- Gives a guard back. -/
def giveBack (r : Roster) : Guard → Roster
  | .slot permit => r.release permit
  | .session id => r.deregister id

/-- A task that has ended gives its next guard back, or goes when it has none left. -/
def retire? (r : Roster) (id : Nat) : Option Roster := do
  let t ← r.task? id
  if t.ended then
    match t.guards with
    | [] => return r.forget id
    | g :: rest => return (r.setTask id fun t => { t with guards := rest }).giveBack g
  else none

/-- A task ends, gives everything back and goes. -/
def dismiss (r : Roster) (id : Nat) : Roster :=
  match r.task? id with
  | none => r
  | some t => (t.guards.foldl giveBack r).forget id

/-- Closes the tracker. -/
def close (r : Roster) : Roster :=
  { r with closed := true }

/-- Whether the tracker reports that all tasks have gone. -/
def isDrained (r : Roster) : Bool :=
  r.closed && r.tasks.isEmpty

/-- Whether a tracked task holds the registration of a session. -/
def isKept (r : Roster) (session : Nat) : Bool :=
  r.tasks.any (·.guards.contains (.session session))

end Roster

/-- What can be asked of a roster from outside a service. -/
inductive RosterCall where
  | register (peer : Endpoint) (now : Nat)
  /-- Ends a registration that no task holds. -/
  | deregister (session : Nat)
  | requestStop
  /-- Fires the token through one of its clones. -/
  | cancel
  | acquire
  | release (permit : Nat)
  /-- Tracks a task that holds a registration until the token fires. -/
  | track (peer : Endpoint) (now : Nat)
  /-- Tracks a task that holds a registration and breaks off as soon as it runs. -/
  | trackBroken (peer : Endpoint) (now : Nat)
  /-- Lets the tracked tasks run. -/
  | turn
  /-- Closes the tracker. -/
  | close
deriving DecidableEq, Repr

namespace Roster

/-- Lets the tracked tasks run: once the token has fired, all of them end. -/
def turn (r : Roster) : Roster :=
  if r.cancelled then (r.tasks.map (·.id)).foldl dismiss r else r

/-- Registers a session and tracks a task that holds its registration. -/
def track (r : Roster) (peer : Endpoint) (now : Nat) : Nat × Roster :=
  let (session, r) := r.register peer now
  r.spawn [.session session]

/-- The roster after a call. -/
def call (r : Roster) : RosterCall → Roster
  | .register peer now => (r.register peer now).2
  | .deregister session => if r.isKept session then r else r.deregister session
  | .requestStop => r.requestStop
  | .cancel => r.cancel
  | .acquire => r.acquire?.elim r (·.2)
  | .release permit => r.release permit
  | .track peer now => (r.track peer now).2
  | .trackBroken peer now =>
    let (task, r) := r.track peer now
    (r.dismiss task).turn
  | .turn => r.turn
  | .close => r.close

/-- The roster after a sequence of calls. -/
def calls (r : Roster) (cs : List RosterCall) : Roster :=
  cs.foldl call r

end Roster

end EchoLog
