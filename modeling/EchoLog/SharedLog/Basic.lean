import EchoLog.Disk.Change
import EchoLog.Session.Basic
import EchoLog.Store.Basic
import EchoLog.Timestamp.Writer
/-!
# A log and the tasks that share it

Sessions, the timestamp writer and single callers use one store.  Its lock is handed out in the order
in which tasks asked for it; whoever holds it takes the file steps of one request and hands it back.
A `SharedLog` is the state of all of them, and an `Event` is the smallest thing that can happen: a
read or a send that ends, a file step, a token that fires, a change by another process.
`SharedLog.step?` says when an event can happen and what it does, so that a run is a list of events
and all interleavings are all lists.
-/

namespace EchoLog

/-- A request to the store from outside the sessions and the timestamp writer. -/
structure Caller where
  request : Request
  answer : Option Answer := none

/-- A task that uses the log. -/
inductive Task where
  | session (s : Session)
  | writer (w : Timestamp.Writer)
  | caller (c : Caller)

namespace Task

/-- What a task asks of the store at this moment. -/
def request? : Task → Option Request
  | .session s =>
    match s.stage with
    | .storing packet => some (.echo packet)
    | _ => none
  | .writer w =>
    match w.stage with
    | .storing record => some (.append record)
    | _ => none
  | .caller c => if c.answer.isNone then some c.request else none

/-- The log that an answer holds. -/
def logOf : Answer → Except Failure Bytes
  | .ok (.log content) => .ok content
  | .ok _ => .ok []
  | .error f => .error f

/-- The store answered. -/
def answered (a : Answer) : Task → Task
  | .session s => .session (s.stored (logOf a))
  | .writer w => .writer (w.stored (logOf a))
  | .caller c => .caller { c with answer := some a }

/-- Whether a task is in a wait that its token can end. -/
def canLeave : Task → Bool
  | .session s =>
    match s.stage with
    | .receiving => true
    | .echoing _ => true
    | .flushing => true
    | _ => false
  | .writer w =>
    match w.stage with
    | .waiting => true
    | _ => false
  | .caller _ => false

/-- The task sees its token. -/
def leave : Task → Task
  | .session s => .session s.leave
  | .writer w => .writer w.leave
  | .caller c => .caller c

end Task

/-- A task and its cancellation token. -/
structure Seat where
  task : Task
  cancelled : Bool := false

/-- The store, the disk, the lock and the tasks.  Tasks are known by their place in `seats`. -/
structure SharedLog where
  disk : Disk
  store : Store
  /-- Who holds the lock, and what it does next. -/
  holder : Option (Nat × Work) := none
  /-- Who waits for the lock and what for, first come first. -/
  waiting : List (Nat × Request) := []
  seats : List Seat := []
  notices : List Notice := []

/-- The smallest things that can happen. -/
inductive Event where
  /-- A session that waits for its peer looks at its token, which has not fired. -/
  | poll (task : Nat)
  /-- A session's read ends. -/
  | receive (task : Nat) (input : Except IoError Bytes)
  /-- A session looks for a packet. -/
  | frame (task : Nat)
  /-- A task asks for the lock. -/
  | ask (task : Nat)
  /-- The lock goes to the first that waits. -/
  | grant
  /-- The holder takes its next file step. -/
  | file (fault : Option Fault)
  /-- The holder has its answer and hands the lock back. -/
  | release
  /-- A peer accepts bytes, or sending fails. -/
  | send (task : Nat) (result : Except IoError Nat)
  /-- Flushing ends. -/
  | flush (task : Nat) (result : Except IoError Unit)
  /-- A task's token fires. -/
  | fire (task : Nat)
  /-- A task sees its token. -/
  | leave (task : Nat)
  /-- A timestamp writer handles a tick, when local clocks show `time`. -/
  | tick (task now : Nat) (time : LocalTime)
  /-- Another process changes the file. -/
  | outside (change : Change)

namespace SharedLog

/-- The task at a place. -/
def task? (g : SharedLog) (i : Nat) : Option Task :=
  g.seats[i]?.map (·.task)

/-- The session at a place. -/
def session? (g : SharedLog) (i : Nat) : Option Session :=
  match g.task? i with
  | some (.session s) => some s
  | _ => none

/-- The timestamp writer at a place. -/
def writer? (g : SharedLog) (i : Nat) : Option Timestamp.Writer :=
  match g.task? i with
  | some (.writer w) => some w
  | _ => none

/-- Whether the token of a task has fired. -/
def isCancelled (g : SharedLog) (i : Nat) : Bool :=
  g.seats[i]?.any (·.cancelled)

/-- Puts a task in the place of another. -/
def setTask (g : SharedLog) (i : Nat) (t : Task) : SharedLog :=
  { g with seats := g.seats.modify i fun seat => { seat with task := t } }

/-- Adds a task. -/
def join (g : SharedLog) (t : Task) (cancelled : Bool := false) : SharedLog :=
  { g with seats := g.seats ++ [⟨t, cancelled⟩] }

/-- Whether a task holds the lock or waits for it. -/
def isQueued (g : SharedLog) (i : Nat) : Bool :=
  g.holder.any (·.1 == i) || g.waiting.any (·.1 == i)

/-- Changes the session of a place, if it can go on. -/
def withSession (g : SharedLog) (i : Nat) (f : Session → Option Session) : Option SharedLog :=
  (g.session? i).bind fun s => (f s).map fun s => g.setTask i (.session s)

/-- A change by another process.  What the holder has open stays open. -/
def changed (g : SharedLog) (c : Change) : SharedLog :=
  let disk := c.apply g.disk g.store.path
  { g with disk := disk, holder := g.holder.map fun (i, w) => (i, w.withHandle (·.keep g.disk disk)) }

/-- Whether a session can turn to its peer: its token has not fired, or had not when it looked. -/
def canTurn (g : SharedLog) (i : Nat) (s : Session) : Bool :=
  s.polling || !g.isCancelled i

/-- Whether a read may end with an input: it takes no more bytes than the session asks for. -/
def fits (s : Session) : Except IoError Bytes → Bool
  | .error _ => true
  | .ok chunk => chunk.length ≤ s.readSize

/-- What an event does; nothing when it cannot happen.

A session looks at its token before it turns to its peer, and once more each time it is woken.  So a read, a
send or a flush of a session whose token has fired cannot happen, unless the token fired after that look.
The look is an event of its own, `poll`, for runs in which something comes between the two.  Where nothing
does, a read, a send or a flush stands for both; and a look after which the session goes back to sleep is no
event. -/
def step? (g : SharedLog) : Event → Option SharedLog
  | .poll i => g.withSession i fun s =>
    if (Task.session s).canLeave && !s.polling && !g.isCancelled i then some s.poll else none
  | .receive i input => do
    let s ← g.session? i
    match s.stage with
    | .receiving =>
      if !g.canTurn i s || !fits s input then none
      else
        let g := { g with notices := g.notices ++ s.receiveNotices input }
        return g.setTask i (.session (s.receive input))
    | _ => none
  | .frame i => g.withSession i fun s =>
    match s.stage with
    | .framing => some s.frame
    | _ => none
  | .ask i => do
    let request ← (← g.task? i).request?
    if g.isQueued i then none else return { g with waiting := g.waiting ++ [(i, request)] }
  | .grant =>
    match g.holder, g.waiting with
    | none, (i, request) :: rest =>
      some { g with holder := some (i, .ofRequest g.store request), waiting := rest }
    | _, _ => none
  | .file fault =>
    match g.holder with
    | none => none
    | some (i, w) =>
      match w.answer? with
      | some _ => none
      | none =>
        let p := w.step fault g.store g.disk
        some { g with holder := some (i, p.work), store := p.store, disk := p.disk,
                      notices := g.notices ++ p.notices }
  | .release => do
    let (i, w) ← g.holder
    let answer ← w.answer?
    let t ← g.task? i
    return { g.setTask i (t.answered answer) with holder := none }
  | .send i result => g.withSession i fun s =>
    match s.stage with
    | .echoing left => if g.canTurn i s then some (s.sent left result) else none
    | _ => none
  | .flush i result => g.withSession i fun s =>
    match s.stage with
    | .flushing => if g.canTurn i s then some (s.flushed result) else none
    | _ => none
  | .fire i =>
    if i < g.seats.length then
      some { g with seats := g.seats.modify i fun seat => { seat with cancelled := true } }
    else none
  | .leave i => do
    let t ← g.task? i
    if g.isCancelled i && t.canLeave then return g.setTask i t.leave else none
  | .tick i now time => do
    let w ← g.writer? i
    match w.stage with
    | .waiting => if w.ticker.due ≤ now then return g.setTask i (.writer (w.tick now time)) else none
    | _ => none
  | .outside c => some (g.changed c)

/-- A run: nothing when one of the events cannot happen in its turn. -/
def run? : SharedLog → List Event → Option SharedLog
  | g, [] => some g
  | g, e :: es => (g.step? e).bind fun g => g.run? es

end SharedLog

end EchoLog
