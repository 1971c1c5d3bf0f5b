import EchoLog.Failure
import EchoLog.Framing.Framer
import EchoLog.Pattern.Item
/-!
# Settings

The settings of the service and of a client, their defaults, and the conditions that a usable
configuration meets.  `Settings.check` reports the first condition that fails, in a fixed order.
-/

namespace EchoLog

/-- The listener and its workers. -/
structure ServerSettings where
  bindAddress : String := "0.0.0.0"
  /-- The port; zero lets the system pick one. -/
  port : UInt16 := 9000
  maxConnections : Nat := 128
  backlog : Int := 128
  /-- The most bytes taken from a socket at once. -/
  chunkSize : Nat := 512
deriving DecidableEq, Repr

/-- The log file. -/
structure StorageSettings where
  dataFile : String := "/var/tmp/aesdsocketdata"
  removeOnShutdown : Bool := true
  syncWrites : Bool := false
deriving DecidableEq, Repr

/-- The cutting of packets. -/
structure FramingSettings where
  preserveRemainder : Bool := true
  maxPacketBytes : Nat := 1048576
deriving DecidableEq, Repr

/-- The periodic timestamp records. -/
structure TimestampSettings where
  enabled : Bool := true
  intervalSeconds : Nat := 10
  format : String := "%a, %d %b %Y %H:%M:%S %z"
deriving DecidableEq, Repr

/-- The end of a run. -/
structure ShutdownSettings where
  drainTimeoutSeconds : Nat := 5
  fatalStorageErrors : Bool := true
deriving DecidableEq, Repr

/-- The diagnostic log. -/
structure LoggingSettings where
  level : String := "packetlog=info,warn"
  format : String := "pretty"
  journald : Bool := false
deriving DecidableEq, Repr

/-- All settings of the service. -/
structure Settings where
  server : ServerSettings := {}
  storage : StorageSettings := {}
  framing : FramingSettings := {}
  timestamp : TimestampSettings := {}
  shutdown : ShutdownSettings := {}
  logging : LoggingSettings := {}
deriving DecidableEq, Repr

/-- The settings of a client. -/
structure ClientSettings where
  address : String := "127.0.0.1:9000"
  timeoutSeconds : Nat := 5
deriving DecidableEq, Repr

/-- Demands that a condition holds. -/
def demand (condition : Bool) (fault : ConfigFault) : Except ConfigFault Unit :=
  if condition then .ok () else .error fault

namespace Settings

/-- The address to listen on, as `host:port`. -/
def listenAddress (s : Settings) : String :=
  s.server.bindAddress ++ ":" ++ numeral 10 s.server.port.toNat

/-- The conditions of a usable configuration, in the order in which they are reported.  The interval
matters only when timestamps are written; their pattern always does. -/
def check (s : Settings) : Except ConfigFault Unit := do
  demand (!s.server.bindAddress.isEmpty) .emptyBindAddress
  demand (0 < s.server.maxConnections && s.server.maxConnections ≤ Limits.connections)
    .connectionCount
  demand (0 < s.server.chunkSize && s.server.chunkSize ≤ Limits.chunkSize) .chunkSize
  demand (!s.storage.dataFile.isEmpty) .emptyDataFile
  demand (0 < s.framing.maxPacketBytes) .packetLimit
  demand (!s.timestamp.enabled ||
      (0 < s.timestamp.intervalSeconds && s.timestamp.intervalSeconds ≤ Limits.timestampInterval))
    .timestampInterval
  demand (Pattern.parse? s.timestamp.format).isSome (.timestampFormat s.timestamp.format)
  demand (s.logging.format = "pretty" || s.logging.format = "json")
    (.loggingFormat s.logging.format)

end Settings

/-- The conditions of usable client settings. -/
def ClientSettings.check (s : ClientSettings) : Except ConfigFault Unit := do
  demand (!s.address.isEmpty) .emptyServerAddress
  demand (0 < s.timeoutSeconds) .zeroTimeout

end EchoLog
