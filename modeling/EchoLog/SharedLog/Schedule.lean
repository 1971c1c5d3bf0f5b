import EchoLog.SharedLog.Basic
/-!
# What happens by itself

Some events need nothing from outside: a session looks for a packet, a task asks for the lock or sees
its token, the lock goes round, the holder takes a file step that does not fail.  `SharedLog.settle`
lets all of them happen, tasks before the lock and earlier tasks before later ones, so the lock is
handed out in the order of the seats.
-/

namespace EchoLog.SharedLog

/-- The events of one task that need nothing from outside. -/
def ownEvents (i : Nat) : List Event :=
  [.frame i, .ask i, .leave i]

/-- The events of the lock and its holder. -/
def lockEvents : List Event :=
  [.release, .grant, .file none]

/-- The state after the first of some events that can happen. -/
def applyFirst? (g : SharedLog) (events : List Event) : Option SharedLog :=
  events.findSome? g.step?

/-- One event that needs nothing from outside. -/
def advance? (g : SharedLog) : Option SharedLog :=
  g.applyFirst? ((List.range g.seats.length).flatMap ownEvents ++ lockEvents)

/-- The most events that can happen before every task waits for something from outside: a task looks
for a packet, asks, is served in at most nine events and leaves. -/
def patience (g : SharedLog) : Nat :=
  16 * (g.seats.length + 1)

/-- Repeats a step until it can no longer be taken, at most `fuel` times. -/
def exhaust (step : SharedLog → Option SharedLog) : (fuel : Nat) → SharedLog → SharedLog
  | 0, g => g
  | fuel + 1, g =>
    match step g with
    | some g => exhaust step fuel g
    | none => g

/-- Lets everything happen that needs nothing from outside. -/
def settle (g : SharedLog) : SharedLog :=
  exhaust advance? g.patience g

/-- Seats callers with given requests, lets everything happen, and gives their answers in order. -/
def serve (g : SharedLog) (requests : List Request) : SharedLog × List (Option Answer) :=
  let first := g.seats.length
  let served := (requests.foldl (fun g r => g.join (.caller { request := r })) g).settle
  let answers := requests.zipIdx.map fun (_, k) =>
    match served.task? (first + k) with
    | some (.caller c) => c.answer
    | _ => none
  (served, answers)

/-- Seats one caller and gives its answer. -/
def ask (g : SharedLog) (request : Request) : SharedLog × Option Answer :=
  let (g, answers) := g.serve [request]
  (g, answers.head?.join)

end EchoLog.SharedLog
