import EchoLog.Net.Resolve
import EchoLog.Service.Basic
/-!
# Starting the service

A start resolves the address, opens a listener there, checks the settings, takes the listener over and
creates the log file, in this order, and the first of these that fails ends it.  The log of an earlier run
is lost only in the last step.

The parts of a start are handed the disk and leave one, also when they fail.  What the system around them
answers is a `Host`.
-/

namespace EchoLog

/-- What comes of a start: the disk after it is part of the answer either way. -/
inductive Start where
  | failed (failure : Failure) (disk : Disk)
  /-- The worker slots are more than a roster can have. -/
  | broken (disk : Disk)
  | started (service : Service)

/-- What the system answers during a start.  Unless said otherwise it knows addresses of numbers only and
refuses nothing. -/
structure Host where
  /-- The endpoints of an address, the one to listen on first. -/
  lookup : String → Except IoError (List Endpoint) := fun address =>
    (Endpoint.resolve address).map ([·])
  /-- Why there is no socket for an endpoint, if there is none. -/
  socket : Endpoint → Option IoError := fun _ => none
  /-- Why the address may not be used again at once. -/
  reuse : Endpoint → Option IoError := fun _ => none
  bind : Endpoint → Option IoError := fun _ => none
  /-- Why it does not listen with so many waiting. -/
  listen : Endpoint → Int → Option IoError := fun _ _ => none
  /-- Why the new listener cannot be asked without waiting for it. -/
  unblock : Endpoint → Option IoError := fun _ => none
  /-- Why a bound listener cannot be taken over. -/
  adopt : Option IoError := none
  /-- Why the log file cannot be opened although the disk has it or could have it, and the disk that the
  attempt leaves. -/
  openLog : Path → Disk → Option (IoError × Disk) := fun _ _ => none
  /-- Why the address of the listener cannot be told. -/
  localAddress : Option IoError := none

/-- Goes on unless there is a refusal. -/
def allow (refusal : Option IoError) (failure : IoError → Failure) : Except Failure Unit :=
  match refusal with
  | some cause => .error (failure cause)
  | none => .ok ()

/-- A part of a start. -/
abbrev Startup := EStateM Failure Disk

namespace Host

/-- The endpoint to listen on. -/
def resolve (host : Host) (address : String) : Except Failure Endpoint :=
  match host.lookup address with
  | .error cause => .error (.config (.listenAddress address cause))
  | .ok [] => .error (.config (.noAddress address))
  | .ok (endpoint :: _) => .ok endpoint

/-- Opens a listener at an endpoint. -/
def openListener (host : Host) (endpoint : Endpoint) (backlog : Int) : Except Failure Unit := do
  allow (host.socket endpoint) fun cause => .server (.socket cause)
  allow (host.reuse endpoint) fun cause => .server (.options cause)
  allow (host.bind endpoint) fun cause => .server (.bind endpoint cause)
  allow (host.listen endpoint backlog) fun cause => .server (.listen endpoint cause)
  allow (host.unblock endpoint) .io

/-- Creates the log file, or empties it. -/
def createLog (host : Host) (path : Path) (sync : Bool) : Startup Store := fun disk =>
  match host.openLog path disk with
  | some (cause, left) => .error (.storage cause) left
  | none =>
    match Store.create disk path sync with
    | .error f => .error f disk
    | .ok (store, fresh) => .ok store fresh

end Host

namespace Service

/-- Resolves the address to listen on and opens a listener there. -/
def listen (host : Host) (settings : Settings) : Except Failure Endpoint := do
  let endpoint ← host.resolve settings.listenAddress
  host.openListener endpoint settings.server.backlog
  return endpoint

/-- Builds the service over a log file that was just created; there is none if the worker slots are more
than a roster can have. -/
def build (host : Host) (settings : Settings) (store : Store) : Startup (Option Service) :=
  match Roster.start? settings.server.maxConnections with
  | none => return none
  | some roster => do
    MonadExcept.ofExcept (allow host.localAddress .io)
    return some
      { settings := settings, log := { disk := ← get, store := store }, force := { roster := roster } }

/-- Starts on a bound listener.  The data file is named from the directory `directory`. -/
def assemble (host : Host) (settings : Settings) (directory : Location) :
    Startup (Option Service) := do
  MonadExcept.ofExcept (settings.check.mapError .config)
  MonadExcept.ofExcept (allow host.adopt .io)
  let store ← host.createLog ⟨directory, settings.storage.dataFile⟩ settings.storage.syncWrites
  build host settings store

/-- Opens a listener and starts on it. -/
def launch (host : Host) (settings : Settings) (directory : Location) : Startup (Option Service) := do
  let _ ← MonadExcept.ofExcept (listen host settings)
  assemble host settings directory

end Service

/-- What comes of a start that was carried out. -/
def Start.ofResult : EStateM.Result Failure Disk (Option Service) → Start
  | .error f disk => .failed f disk
  | .ok none disk => .broken disk
  | .ok (some service) _ => .started service

namespace Service

/-- Starts the service on a bound listener, on a host that refuses nothing.  The data file is named from
the directory `directory`. -/
def ofListener (settings : Settings) (directory : Location) (disk : Disk) : Start :=
  match settings.check with
  | .error fault => .failed (.config fault) disk
  | .ok _ =>
    match Store.create disk ⟨directory, settings.storage.dataFile⟩ settings.storage.syncWrites with
    | .error f => .failed f disk
    | .ok (store, disk) =>
      match Roster.start? settings.server.maxConnections with
      | none => .broken disk
      | some roster => .started
          { settings := settings, log := { disk := disk, store := store }
            force := { roster := roster } }

/-- Resolves and binds the address to listen on; `refusal` says why the system refuses to bind an
endpoint, if it does. -/
def bindAddress (settings : Settings) (refusal : Endpoint → Option IoError) :
    Except Failure Endpoint :=
  listen { bind := refusal } settings

/-- Binds the address to listen on and starts the service there. -/
def bind (settings : Settings) (refusal : Endpoint → Option IoError) (directory : Location)
    (disk : Disk) : Start :=
  .ofResult ((launch { bind := refusal } settings directory).run disk)

end Service

end EchoLog
