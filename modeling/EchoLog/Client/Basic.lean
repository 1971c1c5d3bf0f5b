import EchoLog.Bytes
import EchoLog.Net.Resolve
import EchoLog.Settings.Basic
/-!
# A client

A client sends packets and reads the log that comes back.  It cannot tell where an echo ends other
than by its last bytes, and it looks for them only when a read has ended: `readUntil` stops at the
first read after which everything received ends with the packet that was sent.
-/

namespace EchoLog

namespace Client

/-- What came of an attempt to connect. -/
inductive Dialled where
  | connected
  | failed (cause : IoError)
  /-- Nobody answered in time. -/
  | unanswered
deriving DecidableEq, Repr

/-- Connects to the address in the settings, given what comes of dialling an endpoint. -/
def connect (settings : ClientSettings) (dial : Endpoint → Dialled) : Except Failure Endpoint :=
  match settings.check with
  | .error fault => .error (.config fault)
  | .ok _ =>
    match Endpoint.resolve settings.address with
    | .error cause => .error (.connection (.connect cause))
    | .ok endpoint =>
      match dial endpoint with
      | .connected => .ok endpoint
      | .failed cause => .error (.connection (.connect cause))
      | .unanswered => .error (.connection .connectTimeout)

/-- The packet of a payload: a newline is added unless it ends with one. -/
def packetOf (payload : Bytes) : Bytes :=
  if payload.getLast? = some newline then payload else payload ++ [newline]

/-- What follows the bytes that are on their way to a client. -/
inductive Tail where
  /-- The stream ends. -/
  | ended
  /-- Nothing comes until the client's patience ends. -/
  | silent
  /-- The connection was reset, and the client has not noticed. -/
  | reset
deriving DecidableEq, Repr

/-- What the next reads of a client give: chunks of at least one byte, and what follows them. -/
structure Inbound where
  reads : List Bytes
  tail : Tail
deriving DecidableEq, Repr

/-- The failure at the end of the chunks of a client that waits for an echo. -/
def Tail.echoFailure : Tail → Failure
  | .ended => .connection .closedEarly
  | .silent => .client .echoTimeout
  | .reset => .io .connectionReset

/-- What follows once the end of the chunks was met: a reset is reported once. -/
def Tail.later : Tail → Tail
  | .reset => .ended
  | t => t

/-- Reads on until what was received, `received` first, ends with `suffix`.  A failure loses what was
received. -/
def readOn (suffix received : Bytes) : (reads : List Bytes) → Tail → Except Failure Bytes × Inbound
  | [], tail =>
    if endsWith received suffix then (.ok received, ⟨[], tail⟩)
    else (.error tail.echoFailure, ⟨[], tail.later⟩)
  | chunk :: rest, tail =>
    if endsWith received suffix then (.ok received, ⟨chunk :: rest, tail⟩)
    else readOn suffix (received ++ chunk) rest tail

/-- Reads until what was received ends with `suffix`. -/
def readUntil (suffix : Bytes) (i : Inbound) : Except Failure Bytes × Inbound :=
  readOn suffix [] i.reads i.tail

/-- Reads until the stream ends. -/
def readToClose (i : Inbound) : Except Failure Bytes × Inbound :=
  let answer := match i.tail with
    | .ended => .ok i.reads.flatten
    | .silent => .error (.client .closeTimeout)
    | .reset => .error (.io .connectionReset)
  (answer, ⟨[], i.tail.later⟩)

end Client

end EchoLog
