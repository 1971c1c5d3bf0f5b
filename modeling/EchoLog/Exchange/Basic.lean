import EchoLog.Client.Basic
import EchoLog.SharedLog.Basic
/-!
# Clients and sessions

Clients talk to sessions over links.  What either side sends stands on the link until the other side
reads it, in portions of any size: a portion is a prefix of what stands there.  A client sends one
packet at a time and reads until what it has received ends with that packet; then its call returns.
Nothing fails here and nobody stops: sessions, the lock, the store and timestamp writers move as in
`SharedLog`.
-/

namespace EchoLog

/-- A call of a client that has not returned. -/
structure OpenCall where
  packet : Bytes
  received : Bytes := []
deriving DecidableEq, Repr

/-- The link between a client and the session at a seat. -/
structure Link where
  seat : Nat
  /-- Sent by the client, not read by the session. -/
  toSession : Bytes := []
  /-- Sent by the session, not read by the client. -/
  toClient : Bytes := []
  call : Option OpenCall := none
deriving DecidableEq, Repr

/-- A call that has returned. -/
structure ClosedCall where
  link : Nat
  packet : Bytes
  echo : Bytes
deriving DecidableEq, Repr

/-- A log with its tasks, the links to their clients, and the calls that have returned. -/
structure Exchange where
  log : SharedLog
  links : List Link
  returned : List ClosedCall := []

/-- The smallest things that can happen between clients and sessions. -/
inductive ExchangeEvent where
  /-- A client sends a payload as a packet. -/
  | call (link : Nat) (payload : Bytes)
  /-- A session reads a portion of so many bytes. -/
  | deliver (link size : Nat)
  /-- A session sends a portion of so many bytes. -/
  | send (link size : Nat)
  /-- What a session has sent counts as flushed. -/
  | flush (link : Nat)
  /-- A client reads a portion of so many bytes. -/
  | read (link size : Nat)
  /-- A session looks for a packet. -/
  | frame (seat : Nat)
  /-- A task asks for the lock. -/
  | ask (seat : Nat)
  | grant
  /-- The holder of the lock takes a file step. -/
  | file
  | release
  /-- A timestamp writer handles a tick. -/
  | tick (seat now : Nat) (time : LocalTime)

namespace Exchange

/-- Changes a link. -/
def setLink (x : Exchange) (i : Nat) (l : Link) : Exchange :=
  { x with links := x.links.set i l }

/-- Something happens to the log. -/
def withLog (x : Exchange) (e : Event) : Option Exchange :=
  (x.log.step? e).map fun log => { x with log := log }

/-- A client has read a portion: its call goes on, or returns when what it received ends with its
packet. -/
def afterRead (x : Exchange) (i : Nat) (l : Link) (c : OpenCall) (portion : Bytes) : Exchange :=
  let received := c.received ++ portion
  if endsWith received c.packet then
    { x.setLink i { l with call := none } with
      returned := x.returned ++ [⟨i, c.packet, received⟩] }
  else x.setLink i { l with call := some { c with received := received } }

/-- What an event does; nothing when it cannot happen. -/
def step? (x : Exchange) : ExchangeEvent → Option Exchange
  | .call i payload => do
    let l ← x.links[i]?
    if l.call.isSome then none
    else
      let packet := Client.packetOf payload
      return x.setLink i { l with toSession := l.toSession ++ packet, call := some { packet := packet } }
  | .deliver i size => do
    let l ← x.links[i]?
    let s ← x.log.session? l.seat
    if 0 < size && size ≤ s.readSize && size ≤ l.toSession.length then
      let x ← x.withLog (.receive l.seat (.ok (l.toSession.take size)))
      return x.setLink i { l with toSession := l.toSession.drop size }
    else none
  | .send i size => do
    let l ← x.links[i]?
    let s ← x.log.session? l.seat
    match s.stage with
    | .echoing left =>
      if 0 < size && size ≤ left.length then
        let x ← x.withLog (.send l.seat (.ok size))
        return x.setLink i { l with toClient := l.toClient ++ left.take size }
      else none
    | _ => none
  | .flush i => do
    let l ← x.links[i]?
    x.withLog (.flush l.seat (.ok ()))
  | .read i size => do
    let l ← x.links[i]?
    let c ← l.call
    if 0 < size && size ≤ l.toClient.length then
      return x.afterRead i { l with toClient := l.toClient.drop size } c (l.toClient.take size)
    else none
  | .frame seat => x.withLog (.frame seat)
  | .ask seat => x.withLog (.ask seat)
  | .grant => x.withLog .grant
  | .file => x.withLog (.file none)
  | .release => x.withLog .release
  | .tick seat now time => x.withLog (.tick seat now time)

/-- A run: nothing when one of the events cannot happen in its turn. -/
def run? : Exchange → List ExchangeEvent → Option Exchange
  | x, [] => some x
  | x, e :: es => (x.step? e).bind fun x => x.run? es

end Exchange

end EchoLog
