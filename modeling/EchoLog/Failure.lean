import EchoLog.IoError
import EchoLog.Limits
import EchoLog.Net.Address
/-!
# Failures

Everything that the service reports as an error, kept as its cause.  `Failure.message` is the one
place with the wording.  `Failure.isFatal` says which failures concern the whole service and not only
the connection that met them; `Failure.escalates` is the same question under a configured policy.
-/

namespace EchoLog

/-- What is wrong with a configuration. -/
inductive ConfigFault where
  | emptyBindAddress
  | connectionCount
  | chunkSize
  | emptyDataFile
  | packetLimit
  | timestampInterval
  | timestampFormat (pattern : String)
  | loggingFormat (name : String)
  | emptyServerAddress
  | zeroTimeout
  /-- The configuration file cannot be read. -/
  | unreadable (cause : IoError)
  /-- The configuration file is no document, or a value in it has the wrong type. -/
  | malformed (detail : String)
  /-- The address to listen on is none. -/
  | listenAddress (address : String) (cause : IoError)
  /-- The address to listen on leads nowhere. -/
  | noAddress (address : String)
  /-- A timestamp period, in milliseconds, that reaches past the end of the clock. -/
  | periodOutOfRange (period : Nat)
  | other (message : String)
deriving DecidableEq, Repr

/-- What went wrong with the listener. -/
inductive ServerFault where
  | socket (cause : IoError)
  /-- The socket cannot be told that its address may be used again. -/
  | options (cause : IoError)
  | bind (endpoint : Endpoint) (cause : IoError)
  | listen (endpoint : Endpoint) (cause : IoError)
  | accept (cause : IoError)
  | other (message : String)
deriving DecidableEq, Repr

/-- What went wrong on one connection. -/
inductive ConnectionFault where
  | receive (peer : Endpoint) (cause : IoError)
  | send (peer : Endpoint) (cause : IoError)
  | connect (cause : IoError)
  /-- Nobody answered a connection attempt in time. -/
  | connectTimeout
  /-- The service closed the connection before the echo was complete. -/
  | closedEarly
  | other (message : String)
deriving DecidableEq, Repr

/-- What a client gave up on. -/
inductive ClientFault where
  | echoTimeout
  | closeTimeout
  | other (message : String)
deriving DecidableEq, Repr

/-- A failure of any part of the service. -/
inductive Failure where
  | io (cause : IoError)
  | config (fault : ConfigFault)
  | server (fault : ServerFault)
  | connection (fault : ConnectionFault)
  /-- Reading or writing the log file failed. -/
  | storage (cause : IoError)
  /-- A packet grew past the limit without a newline. -/
  | packetTooLarge (limit : Nat)
  | client (fault : ClientFault)
deriving DecidableEq, Repr

/-- A span of milliseconds in the largest unit that keeps it at least one, without trailing zeros. -/
def spanText (milliseconds : Nat) : String :=
  let fraction := milliseconds % 1000
  if milliseconds = 0 then "0ns"
  else if milliseconds < 1000 then s!"{milliseconds}ms"
  else if fraction = 0 then s!"{milliseconds / 1000}s"
  else
    let digits := (numeral 10 (1000 + fraction)).toList.drop 1
    let kept := (digits.reverse.dropWhile (· == '0')).reverse
    s!"{milliseconds / 1000}.{String.ofList kept}s"

/-- The wording of a configuration fault. -/
def ConfigFault.text : ConfigFault → String
  | emptyBindAddress => "Bind address cannot be empty"
  | connectionCount => s!"max_connections must be between 1 and {Limits.connections}"
  | chunkSize => s!"chunk_size must be between 1 and {Limits.chunkSize}"
  | emptyDataFile => "Data file path cannot be empty"
  | packetLimit => "max_packet_bytes must be at least 1"
  | timestampInterval =>
    s!"Timestamp interval must be between 1 and {Limits.timestampInterval} seconds"
  | timestampFormat pattern => s!"Invalid timestamp format '{pattern}'"
  | loggingFormat name => s!"Unknown logging format '{name}'"
  | emptyServerAddress => "Server address cannot be empty"
  | zeroTimeout => "Timeout must be at least one second"
  | unreadable cause => s!"Failed to read config file: {cause.text}"
  | malformed detail => s!"Failed to parse config: {detail}"
  | listenAddress address cause => s!"Invalid listen address '{address}': {cause.text}"
  | noAddress address => s!"No address found for '{address}'"
  | periodOutOfRange period => s!"Timestamp period {spanText period} is out of range"
  | other message => message

/-- The wording of a listener fault. -/
def ServerFault.text : ServerFault → String
  | socket cause => s!"Failed to create socket: {cause.text}"
  | options cause => s!"Failed to set socket options: {cause.text}"
  | bind endpoint cause => s!"Failed to bind {endpoint.text}: {cause.text}"
  | listen endpoint cause => s!"Failed to listen on {endpoint.text}: {cause.text}"
  | accept cause => s!"Failed to accept connection: {cause.text}"
  | other message => message

/-- The wording of a connection fault. -/
def ConnectionFault.text : ConnectionFault → String
  | receive peer cause => s!"receive from {peer.text} failed: {cause.text}"
  | send peer cause => s!"send to {peer.text} failed: {cause.text}"
  | connect cause => s!"Failed to connect: {cause.text}"
  | connectTimeout => "Connection timeout"
  | closedEarly => "Server closed connection before echo completed"
  | other message => message

/-- The wording of a client fault. -/
def ClientFault.text : ClientFault → String
  | echoTimeout => "Timed out waiting for echo"
  | closeTimeout => "Timed out waiting for close"
  | other message => message

namespace Failure

/-- The wording of a failure. -/
def message : Failure → String
  | io cause => s!"I/O error: {cause.text}"
  | config fault => s!"Configuration error: {fault.text}"
  | server fault => s!"Server error: {fault.text}"
  | connection fault => s!"Connection error: {fault.text}"
  | storage cause => s!"Storage error: {cause.text}"
  | packetTooLarge limit => s!"Packet exceeds limit of {limit} bytes"
  | client fault => s!"Client error: {fault.text}"

/-- Whether the failure concerns the whole service and not only one connection. -/
def isFatal : Failure → Bool
  | storage _ => true
  | server _ => true
  | _ => false

/-- The input or output error beneath, if there is one. -/
def source : Failure → Option IoError
  | io cause => some cause
  | storage cause => some cause
  | _ => none

/-- Whether the failure stops the service: a storage failure does so only under the policy that says
it does, any other when it is fatal. -/
def escalates (fatalStorage : Bool) : Failure → Bool
  | storage _ => fatalStorage
  | f => f.isFatal

end Failure

end EchoLog
