import EchoLog.SharedLog.Schedule
/-!
# Scripted peers

A peer by script: what its session's reads give, one cue after another, and how it takes what is sent
to it.  `Peer.act?` says which events a peer causes when its session waits for it; `Peer.run` runs
several sessions and their peers on one log to their ends.  Peers act in the order of their sessions,
and all of them before the lock moves on.
-/

namespace EchoLog

/-- What a read of the session meets. -/
inductive Cue where
  /-- Bytes arrive, as many as one read takes at a time; no bytes are the end of the stream. -/
  | deliver (bytes : Bytes)
  /-- The read fails. -/
  | fail (cause : IoError)
  /-- Nothing yet. -/
  | notYet
  /-- The token fires while there is nothing to read. -/
  | cancel
  /-- The token fires while bytes arrive. -/
  | deliverAndCancel (bytes : Bytes)
  /-- Another process changes the file just before the next cue. -/
  | outside (change : Change)
deriving DecidableEq, Repr

/-- How a peer takes what is sent to it.  The counts are of all bytes accepted so far. -/
structure Reception where
  /-- The most bytes accepted at once. -/
  portion : Option Nat := none
  /-- Sending fails once so many bytes were accepted. -/
  failing : Option (Nat × IoError) := none
  /-- No byte is accepted after so many. -/
  closing : Option Nat := none
  /-- The token fires, and nothing more is accepted, after so many bytes. -/
  cancelling : Option Nat := none
  /-- Flushing fails. -/
  flushError : Option IoError := none
  /-- The token fires during a flush. -/
  cancelOnFlush : Bool := false
deriving DecidableEq, Repr

/-- A peer by script, and what it has accepted. -/
structure Peer where
  /-- The place of its session. -/
  seat : Nat
  cues : List Cue
  reception : Reception := {}
  accepted : Nat := 0
  /-- What was accepted before each flush. -/
  echoes : List Bytes := []
  /-- What was accepted after the last flush. -/
  unflushed : Bytes := []
deriving Repr

namespace Reception

/-- The thresholds of accepted bytes. -/
def thresholds (r : Reception) : List Nat :=
  (r.failing.map (·.1)).toList ++ r.closing.toList ++ r.cancelling.toList

/-- How many of `left` bytes are accepted at once, after `accepted` bytes: a threshold is never
stepped over. -/
def room (r : Reception) (accepted left : Nat) : Nat :=
  r.thresholds.foldl (fun n t => min n (t - accepted)) (min left (r.portion.getD left))

end Reception

namespace Peer

/-- The events that a peer causes when its session reads, `size` bytes at a time. -/
def deliver (p : Peer) (size : Nat) : Peer × List Event :=
  match p.cues with
  | [] => (p, [.receive p.seat (.ok [])])
  | .deliver bytes :: rest =>
    let cues := match bytes.drop size with
      | [] => rest
      | later => .deliver later :: rest
    ({ p with cues := cues }, [.receive p.seat (.ok (bytes.take size))])
  | .deliverAndCancel bytes :: rest =>
    let cues := match bytes.drop size with
      | [] => rest
      | later => .deliver later :: rest
    -- the token fires in the poll that takes the bytes, after it was looked at
    ({ p with cues := cues }, [.poll p.seat, .fire p.seat, .receive p.seat (.ok (bytes.take size))])
  | .fail cause :: rest => ({ p with cues := rest }, [.receive p.seat (.error cause)])
  | .notYet :: rest => ({ p with cues := rest }, [])
  | .cancel :: rest => ({ p with cues := rest }, [.fire p.seat])
  | .outside change :: rest => ({ p with cues := rest }, [.outside change])

/-- The events that a peer causes when its session sends. -/
def accept (p : Peer) (left : Bytes) : Peer × List Event :=
  match p.reception.failing.filter (·.1 ≤ p.accepted) with
  | some (_, cause) => (p, [.send p.seat (.error cause)])
  | none =>
    if p.reception.closing.any (· ≤ p.accepted) then (p, [.send p.seat (.ok 0)])
    else if p.reception.cancelling.any (· ≤ p.accepted) then (p, [.fire p.seat])
    else
      let n := p.reception.room p.accepted left.length
      ({ p with accepted := p.accepted + n, unflushed := p.unflushed ++ left.take n },
        [.send p.seat (.ok n)])

/-- The events that a peer causes when its session flushes. -/
def flush (p : Peer) : Peer × List Event :=
  match p.reception.flushError with
  | some cause => (p, [.flush p.seat (.error cause)])
  | none =>
    ({ p with echoes := p.echoes ++ [p.unflushed], unflushed := [] },
      (if p.reception.cancelOnFlush then [.poll p.seat, .fire p.seat] else []) ++
        [.flush p.seat (.ok ())])

/-- What a peer does when its session waits for it; nothing when the session does not. -/
def act? (p : Peer) (g : SharedLog) : Option (Peer × List Event) :=
  if g.isCancelled p.seat then none
  else
    match g.session? p.seat with
    | none => none
    | some s =>
      match s.stage with
      | .receiving => some (p.deliver s.readSize)
      | .echoing left => some (p.accept left)
      | .flushing => some p.flush
      | _ => none

/-- One step of a session or of its peer. -/
def turn? (p : Peer) (g : SharedLog) : Option (Peer × SharedLog) :=
  match g.applyFirst? (SharedLog.ownEvents p.seat) with
  | some g => some (p, g)
  | none => (p.act? g).bind fun (p, events) => (g.run? events).map fun g => (p, g)

/-- One step of the first session that can take one, with its peer. -/
def turnFirst? : List Peer → SharedLog → Option (List Peer × SharedLog)
  | [], _ => none
  | p :: rest, g =>
    match p.turn? g with
    | some (p, g) => some (p :: rest, g)
    | none => (turnFirst? rest g).map fun (rest, g) => (p :: rest, g)

/-- One step of a session, of its peer or of the lock. -/
def step? (peers : List Peer) (g : SharedLog) : Option (List Peer × SharedLog) :=
  match turnFirst? peers g with
  | some next => some next
  | none => (g.applyFirst? SharedLog.lockEvents).map fun g => (peers, g)

/-- Takes steps until none is left, at most `fuel` of them. -/
def runFor : (fuel : Nat) → List Peer → SharedLog → List Peer × SharedLog
  | 0, peers, g => (peers, g)
  | fuel + 1, peers, g =>
    match step? peers g with
    | some (peers, g) => runFor fuel peers g
    | none => (peers, g)

/-- The bytes of a cue that may reach the log or the session. -/
def cueBytes : Cue → Nat
  | .deliver bytes => bytes.length
  | .deliverAndCancel bytes => bytes.length
  | .outside (.write content) => content.length
  | .outside (.append content) => content.length
  | .outside (.truncate length) => length
  | _ => 0

/-- More steps than peers by script can take: every byte that arrives may end a packet, each packet is
looked for, stored, and sent at worst one byte at a time, and the log never grows past what it held or
has counted, what arrives and what other processes put there. -/
def patience (peers : List Peer) (g : SharedLog) : Nat :=
  let cues := peers.flatMap (·.cues)
  let arriving := cues.foldl (fun n cue => n + cueBytes cue) 0
  let held := max g.store.committed ((g.disk.read g.store.path).toOption.getD []).length
  (arriving + cues.length + peers.length + 1) * (arriving + held + 32)

/-- Runs sessions and their peers until nothing more happens. -/
def run (peers : List Peer) (g : SharedLog) : List Peer × SharedLog :=
  runFor (patience peers g) peers g

/-- What a peer saw of its session: how it ended, the echoes, and what was sent without a flush. -/
structure Account where
  result : Except Failure SessionEnd
  echoes : List Bytes
  unflushed : Bytes

/-- A session to be run: its settings, whether its token has fired already, and its peer's script. -/
structure Part where
  endpoint : Endpoint
  settings : SessionSettings
  cancelled : Bool
  cues : List Cue
  reception : Reception

/-- Runs sessions by script on one log, all at once: the log after them, and what each peer saw. -/
def perform (parts : List Part) (g : SharedLog) : SharedLog × List Account :=
  let first := g.seats.length
  let seated := parts.foldl
    (fun g p => g.join (.session (.start p.endpoint p.settings)) p.cancelled) g
  let peers := parts.zipIdx.map fun (p, k) =>
    ({ seat := first + k, cues := p.cues, reception := p.reception } : Peer)
  let (peers, after) := run peers seated
  let accounts := peers.filterMap fun p =>
    ((after.session? p.seat).bind Session.result?).map fun result =>
      ⟨result, p.echoes, p.unflushed⟩
  (after, accounts)

end Peer

end EchoLog
