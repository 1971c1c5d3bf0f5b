import EchoLog.Command.Arguments
import EchoLog.Service.Start
import EchoLog.Settings.Document
/-!
# A use of the command

The command reads its arguments, loads the settings, says what it is going to do, and starts the
service in the foreground or detached.  What the arguments give replaces what the configuration file
gives, and the result is checked again.
-/

namespace EchoLog.Command

/-- The settings with what the arguments give in their place. -/
def Arguments.override (a : Arguments) (s : Settings) : Settings :=
  { s with
    server := { s.server with
      bindAddress := a.bind.getD s.server.bindAddress
      port := a.port.getD s.server.port }
    storage := { s.storage with dataFile := a.dataFile.getD s.storage.dataFile } }

/-- Loads the settings; `file` is what reading the configuration file gave, if it exists. -/
def loadSettings (a : Arguments) (file : Option (Except IoError Bytes)) :
    Except ConfigFault Settings := do
  let base ← match file with
    | some content => Settings.ofFile content
    | none => .ok {}
  let settings := a.override base
  settings.check
  return settings

/-- What a file at a path gives to a reader; nothing when the path does not exist. -/
def contentAt? (disk : Disk) (p : Path) : Option (Except IoError Bytes) :=
  match disk.find p with
  | .ok _ => some (disk.read p)
  | .error _ => none

/-- What comes of a use of the command. -/
inductive Outcome where
  /-- The arguments ended it. -/
  | early (e : Early)
  /-- There are no usable settings. -/
  | refused (fault : ConfigFault)
  /-- The service could not be started, and the caller knows. -/
  | failed (settings : Settings) (failure : Failure)
  /-- The service broke off while it was started. -/
  | broken (settings : Settings)
  /-- The service runs in the foreground. -/
  | serving (settings : Settings) (service : Service)
  /-- The caller is told that all is well; the service starts, or fails to, on its own. -/
  | detached (settings : Settings) (start : Start)

/-- The directory in which the service starts: a detached one has moved to the root. -/
def startDirectory (a : Arguments) (directory : Location) : Location :=
  if a.daemon then [] else directory

/-- Starts the service with loaded settings.  The address is bound before a detached service leaves,
so that the caller learns of an unusable one. -/
def serve (a : Arguments) (settings : Settings) (refusal : Endpoint → Option IoError)
    (directory : Location) (disk : Disk) : Outcome :=
  match Service.bindAddress settings refusal with
  | .error f => .failed settings f
  | .ok _ =>
    let start := Service.ofListener settings (startDirectory a directory) disk
    if a.daemon then .detached settings start
    else
      match start with
      | .failed f _ => .failed settings f
      | .broken _ => .broken settings
      | .started service => .serving settings service

/-- A use of the command in a directory. -/
def run (args : List String) (refusal : Endpoint → Option IoError) (directory : Location) (disk : Disk) :
    Outcome :=
  match Arguments.read args with
  | .error e => .early e
  | .ok a =>
    let file : Path := ⟨directory, a.config.getD defaultConfig⟩
    match loadSettings a (contentAt? disk file) with
    | .error fault => .refused fault
    | .ok settings => serve a settings refusal directory disk

/-- The exit status of a use that does not serve. -/
def Outcome.status : Outcome → Nat
  | .early .mistake => 2
  | .early _ => 0
  | .refused _ => 1
  | .failed _ _ => 1
  | .broken _ => 101
  | .serving _ _ => 0
  | .detached _ _ => 0

/-- The name of the command. -/
def name : String := "packetlog-server"

/-- What the command says about itself. -/
def about : String := "Newline-framed packet logging server"

/-- The line that tells the version. -/
def versionLine : String := name ++ " 0.1.0"

end EchoLog.Command
