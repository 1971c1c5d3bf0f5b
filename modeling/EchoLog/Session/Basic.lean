import EchoLog.Framing.Framer
import EchoLog.Notice
import EchoLog.Settings.Basic
/-!
# A session

One connection, from its acceptance to its end.  A session waits for bytes, cuts them into packets,
has each packet stored, and sends the log that comes back to its peer before it looks for the next
packet.  Only its waits for the peer race the cancellation token; a store request is never given up.

The functions here are the session's own transitions.  Which of them happens, and with what, is up to
the peer, the store and the token: see `EchoLog.SharedLog`.
-/

namespace EchoLog

/-- What a session takes from the settings. -/
structure SessionSettings where
  chunkSize : Nat := 512
  maxPacketBytes : Nat := 1048576
  remainder : Remainder := .keep
deriving DecidableEq, Repr

/-- The session settings of a configuration. -/
def SessionSettings.ofSettings (s : Settings) : SessionSettings :=
  ⟨s.server.chunkSize, s.framing.maxPacketBytes, .ofKeep s.framing.preserveRemainder⟩

/-- The most bytes one read may take: at least one. -/
def SessionSettings.readSize (s : SessionSettings) : Nat :=
  max s.chunkSize 1

/-- How a session ends without a failure. -/
inductive SessionEnd where
  /-- The peer closed its side; `discarded` bytes of an unfinished packet were never stored. -/
  | peerClosed (discarded : Nat)
  /-- The service is stopping. -/
  | cancelled
deriving DecidableEq, Repr

/-- Where a session stands. -/
inductive Stage where
  /-- Waiting for bytes or the token. -/
  | receiving
  /-- Looking for a packet in what is held. -/
  | framing
  /-- Having a packet stored. -/
  | storing (packet : Bytes)
  /-- Sending the log; `left` has not been accepted by the peer yet. -/
  | echoing (left : Bytes)
  /-- Waiting until the peer's side has flushed what was sent. -/
  | flushing
  | ended (result : Except Failure SessionEnd)

/-- A session. -/
structure Session where
  peer : Endpoint
  readSize : Nat
  framer : Framer
  /-- Received bytes that no packet has been cut from yet. -/
  held : Bytes := []
  stage : Stage := .receiving
  /-- Whether it has looked at its token in this wait for its peer, before the token had fired, and turns to
  its peer next. -/
  polling : Bool := false

namespace Session

/-- A session with a peer. -/
def start (peer : Endpoint) (settings : SessionSettings) : Session where
  peer := peer
  readSize := settings.readSize
  framer := ⟨0, settings.maxPacketBytes, settings.remainder⟩

/-- Ends a session with a failure. -/
def fail (s : Session) (f : Failure) : Session :=
  { s with stage := .ended (.error f) }

/-- The token was seen: what is held is dropped. -/
def leave (s : Session) : Session :=
  { s with held := [], framer := s.framer.rewind, stage := .ended (.ok .cancelled) }

/-- The token was looked at, and had not fired. -/
def poll (s : Session) : Session :=
  { s with polling := true }

/-- A read ended: bytes arrived, the stream ended (no byte), or it failed. -/
def receive (s : Session) : Except IoError Bytes → Session
  | .error cause => s.fail (.connection (.receive s.peer cause))
  | .ok [] => { s with stage := .ended (.ok (.peerClosed s.held.length)) }
  | .ok chunk => { s with held := s.held ++ chunk, stage := .framing, polling := false }

/-- What is reported about received bytes. -/
def receiveNotices (s : Session) : Except IoError Bytes → List Notice
  | .error _ => []
  | .ok chunk => (firstNul chunk).toList.map (.zeroByte s.peer)

/-- Looks for the next packet. -/
def frame (s : Session) : Session :=
  let l := s.framer.look s.held
  let stage := match l.cut with
    | .packet p => .storing p
    | .incomplete => .receiving
    | .oversized => .ended (.error s.framer.tooLarge)
  { s with framer := l.framer, held := l.buffer, stage := stage }

/-- Sends what is left of the log, and flushes after the last byte. -/
def echo (s : Session) (left : Bytes) : Session :=
  { s with stage := if left.isEmpty then .flushing else .echoing left }

/-- The store answered. -/
def stored (s : Session) : Except Failure Bytes → Session
  | .error f => s.fail f
  | .ok log => s.echo log

/-- The peer accepted some of the bytes left to send, or sending failed.  Accepting none is a
failure. -/
def sent (s : Session) (left : Bytes) : Except IoError Nat → Session
  | .error cause => s.fail (.connection (.send s.peer cause))
  | .ok 0 => s.fail (.connection (.send s.peer (.ofKind .writeZero)))
  | .ok n => s.echo (left.drop n)

/-- Flushing ended. -/
def flushed (s : Session) : Except IoError Unit → Session
  | .error cause => s.fail (.connection (.send s.peer cause))
  | .ok _ => { s with stage := .framing, polling := false }

/-- How the session ended. -/
def result? (s : Session) : Option (Except Failure SessionEnd) :=
  match s.stage with
  | .ended result => some result
  | _ => none

end Session

end EchoLog
