import EchoLog.Bytes
import EchoLog.Settings.Basic
import EchoLog.Toml.Document
/-!
# Settings from documents

A document overrides the defaults field by field.  A section is a table whose unknown keys are
ignored, or an array that gives its first fields in order.  A value must have its field's type and
lie in its range; nothing is converted.
-/

namespace EchoLog

/-- A field of a section: its key and how a value of a document is stored in it. -/
structure Field (σ : Type) where
  key : String
  assign : Toml.Value → σ → Option σ

namespace Field

variable {σ : Type}

/-- A field that is text. -/
def text (key : String) (set : String → σ → σ) : Field σ where
  key := key
  assign
    | .string t, s => some (set t s)
    | _, _ => none

/-- A field that is a truth value. -/
def flag (key : String) (set : Bool → σ → σ) : Field σ where
  key := key
  assign
    | .boolean b, s => some (set b s)
    | _, _ => none

/-- A field that is an integer from `low` to `high`. -/
def integer (key : String) (low high : Int) (set : Int → σ → σ) : Field σ where
  key := key
  assign
    | .integer n, s => if low ≤ n && n ≤ high then some (set n s) else none
    | _, _ => none

/-- A field that is a size or a number of seconds: an integer that is not negative. -/
def natural (key : String) (set : Nat → σ → σ) : Field σ where
  key := key
  assign
    | .integer n, s => if 0 ≤ n then some (set n.toNat s) else none
    | _, _ => none

/-- Stores what a table gives for known keys. -/
def readTable (fields : List (Field σ)) (entries : List (String × Toml.Value)) (s : σ) : Option σ :=
  fields.foldlM (fun s f => match entries.lookup f.key with
    | none => some s
    | some v => f.assign v s) s

/-- Stores the values of an array in the first fields. -/
def readArray (fields : List (Field σ)) (values : List Toml.Value) (s : σ) : Option σ :=
  (fields.zip values).foldlM (fun s (f, v) => f.assign v s) s

/-- Stores a section.  A date gives no field anything. -/
def readSection (fields : List (Field σ)) : Toml.Value → σ → Option σ
  | .table entries, s => readTable fields entries s
  | .array values, s => readArray fields values s
  | .moment _, s => some s
  | _, _ => none

/-- A field that is a section of its own. -/
def nested {τ : Type} (key : String) (fields : List (Field τ)) (get : σ → τ) (set : τ → σ → σ) :
    Field σ where
  key := key
  assign v s := (readSection fields v (get s)).map fun t => set t s

end Field

/-- The fields of the listener section. -/
def ServerSettings.fields : List (Field ServerSettings) :=
  [.text "bind_address" fun v s => { s with bindAddress := v },
    .integer "port" 0 65535 fun v s => { s with port := v.toNat.toUInt16 },
    .natural "max_connections" fun v s => { s with maxConnections := v },
    .integer "backlog" (-2147483648) 2147483647 fun v s => { s with backlog := v },
    .natural "chunk_size" fun v s => { s with chunkSize := v }]

/-- The fields of the log file section. -/
def StorageSettings.fields : List (Field StorageSettings) :=
  [.text "data_file" fun v s => { s with dataFile := v },
    .flag "remove_on_shutdown" fun v s => { s with removeOnShutdown := v },
    .flag "sync_writes" fun v s => { s with syncWrites := v }]

/-- The fields of the framing section. -/
def FramingSettings.fields : List (Field FramingSettings) :=
  [.flag "preserve_remainder" fun v s => { s with preserveRemainder := v },
    .natural "max_packet_bytes" fun v s => { s with maxPacketBytes := v }]

/-- The fields of the timestamp section. -/
def TimestampSettings.fields : List (Field TimestampSettings) :=
  [.flag "enabled" fun v s => { s with enabled := v },
    .natural "interval_secs" fun v s => { s with intervalSeconds := v },
    .text "format" fun v s => { s with format := v }]

/-- The fields of the shutdown section. -/
def ShutdownSettings.fields : List (Field ShutdownSettings) :=
  [.natural "drain_timeout_secs" fun v s => { s with drainTimeoutSeconds := v },
    .flag "fatal_storage_errors" fun v s => { s with fatalStorageErrors := v }]

/-- The fields of the logging section. -/
def LoggingSettings.fields : List (Field LoggingSettings) :=
  [.text "level" fun v s => { s with level := v },
    .text "format" fun v s => { s with format := v },
    .flag "journald" fun v s => { s with journald := v }]

/-- The sections of the settings. -/
def Settings.fields : List (Field Settings) :=
  [.nested "server" ServerSettings.fields (·.server) fun v s => { s with server := v },
    .nested "storage" StorageSettings.fields (·.storage) fun v s => { s with storage := v },
    .nested "framing" FramingSettings.fields (·.framing) fun v s => { s with framing := v },
    .nested "timestamp" TimestampSettings.fields (·.timestamp) fun v s => { s with timestamp := v },
    .nested "shutdown" ShutdownSettings.fields (·.shutdown) fun v s => { s with shutdown := v },
    .nested "logging" LoggingSettings.fields (·.logging) fun v s => { s with logging := v }]

/-- The fields of a client's settings. -/
def ClientSettings.fields : List (Field ClientSettings) :=
  [.text "address" fun v s => { s with address := v },
    .natural "timeout_seconds" fun v s => { s with timeoutSeconds := v }]

/-- The value that a document's text gives over the defaults, before any check. -/
def readDocument {σ : Type} (fields : List (Field σ)) (default : σ) (text : String) :
    Except ConfigFault σ :=
  match Toml.parse text with
  | .error line => .error (.malformed s!"no TOML on line {line}")
  | .ok entries =>
    match Field.readTable fields entries default with
    | none => .error (.malformed "a value has the wrong type or is out of range")
    | some s => .ok s

namespace Settings

/-- The settings of a document, before any check. -/
def ofText (text : String) : Except ConfigFault Settings :=
  readDocument fields {} text

/-- The settings of a configuration file, from what reading it gave: they have passed the check. -/
def ofFile (content : Except IoError Bytes) : Except ConfigFault Settings :=
  match content with
  | .error cause => .error (.unreadable cause)
  | .ok bytes =>
    match ofUtf8? bytes with
    | none => .error (.unreadable (.custom .invalidData "stream did not contain valid UTF-8"))
    | some text => do
      let settings ← ofText text
      settings.check
      return settings

end Settings

/-- The client settings of a document, before any check. -/
def ClientSettings.ofText (text : String) : Except ConfigFault ClientSettings :=
  readDocument fields {} text

end EchoLog
