import EchoLog.Client.Basic
/-!
# A connection as its client sees it

The bytes that a peer has sent and the client has not read, the bytes that the client has sent and
the peer has not taken, and how either side stands.  A client reads into a buffer that starts with
room for 64 bytes and doubles whenever it is full, so a read never takes more than the room that is
left.
-/

namespace EchoLog.Client

/-- What a client's sending meets. -/
inductive Outlet where
  | opened
  /-- The connection was reset, and the client has not noticed. -/
  | reset
  /-- The connection was reset, and the client knows. -/
  | broken
deriving DecidableEq, Repr

/-- A connection as its client sees it. -/
structure Wire where
  /-- Sent by the peer, not read by the client. -/
  arriving : Bytes := []
  tail : Tail := .silent
  /-- Sent by the client, not taken by the peer. -/
  leaving : Bytes := []
  outlet : Outlet := .opened
deriving DecidableEq, Repr

/-- The capacity of a buffer for `received` bytes and one more: 64 bytes, doubled as often as needed.
-/
def capacityFor (received : Nat) : (fuel : Nat) → (capacity : Nat) → Nat
  | 0, capacity => capacity
  | fuel + 1, capacity => if received < capacity then capacity else capacityFor received fuel (2 * capacity)

/-- How many bytes a read takes at most when `received` bytes are in the buffer. -/
def room (received : Nat) : Nat :=
  capacityFor received received 64 - received

/-- The reads that take `bytes` when `received` bytes are in the buffer already. -/
def cutReads : (fuel received : Nat) → Bytes → List Bytes
  | 0, _, bytes => if bytes.isEmpty then [] else [bytes]
  | fuel + 1, received, bytes =>
    if bytes.isEmpty then []
    else
      let n := max 1 (room received)
      bytes.take n :: cutReads fuel (received + n) (bytes.drop n)

namespace Wire

/-- What the next reads give. -/
def inbound (w : Wire) : Inbound :=
  ⟨cutReads w.arriving.length 0 w.arriving, w.tail⟩

/-- The wire after reads that left `i` over. -/
def afterReads (w : Wire) (i : Inbound) : Wire :=
  { w with arriving := i.reads.flatten, tail := i.tail
           outlet := if w.tail = .reset && i.tail ≠ .reset then .broken else w.outlet }

/-- The client reads until what was received ends with `suffix`. -/
def readUntil (w : Wire) (suffix : Bytes) : Except Failure Bytes × Wire :=
  let (answer, i) := Client.readUntil suffix w.inbound
  (answer, w.afterReads i)

/-- The client reads until the peer ends the stream. -/
def readToClose (w : Wire) : Except Failure Bytes × Wire :=
  let (answer, i) := Client.readToClose w.inbound
  (answer, w.afterReads i)

/-- The client sends bytes.  Sending no byte always succeeds; a reset is reported by the first
operation that meets it, and sending fails from then on. -/
def send (w : Wire) (bytes : Bytes) : Except Failure Unit × Wire :=
  if bytes.isEmpty then (.ok (), w)
  else
    match w.outlet with
    | .opened => (.ok (), { w with leaving := w.leaving ++ bytes })
    | .reset => (.error (.io .connectionReset), { w with outlet := .broken, tail := .ended })
    | .broken => (.error (.io .brokenPipe), w)

/-- The client sends a payload as a packet and reads the echo. -/
def sendPacket (w : Wire) (payload : Bytes) : Except Failure Bytes × Wire :=
  match w.send (packetOf payload) with
  | (.error f, w) => (.error f, w)
  | (.ok _, w) => w.readUntil (packetOf payload)

/-- The peer sends bytes. -/
def peerSend (w : Wire) (bytes : Bytes) : Wire :=
  { w with arriving := w.arriving ++ bytes }

/-- The peer takes up to `n` of the bytes that the client has sent. -/
def peerTake (w : Wire) (n : Nat) : Bytes × Wire :=
  (w.leaving.take n, { w with leaving := w.leaving.drop n })

/-- The peer ends its side of the stream. -/
def peerFinish (w : Wire) : Wire :=
  { w with tail := .ended }

/-- The peer resets the connection. -/
def peerReset (w : Wire) : Wire :=
  { w with tail := .reset, outlet := .reset }

end Wire

end EchoLog.Client
