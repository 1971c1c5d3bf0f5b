import EchoLog.Command.Run
import EchoLog.Service.Schedule
/-!
# The command

`main` reads the arguments and the configuration file and serves the connection that its standard
input and output are, as a super-server hands it over.  All decisions are those of
`EchoLog.Command.loadSettings` and `EchoLog.Service`; this module only carries bytes between them and
the world: it surveys the data file before the start and saves it after every step.  While it waits
for input nothing else runs, so it writes no timestamp records.
-/

namespace EchoLog.Command

/-- An error of the system, as far as it can be told. -/
def ofSystem : IO.Error → IoError
  | .noFileOrDirectory _ code _ => .os code.toNat
  | .permissionDenied _ code _ => .os code.toNat
  | .inappropriateType _ code _ => .os code.toNat
  | .resourceExhausted _ code _ => .os code.toNat
  | .otherError code _ => .os code.toNat
  | e => .custom .other (toString e)

/-- What reading a file gives. -/
def fetch (file : String) : IO (Except IoError Bytes) := do
  try
    let content ← IO.FS.readBinFile file
    return .ok content.toList
  catch e => return .error (ofSystem e)

/-- Whether a directory stands at a path. -/
def isDirectory (file : String) : IO Bool := do
  ((← IO.currentDir) / file).isDir

/-- The text of a path to a location. -/
def pathText (place : Location) : String :=
  "/" ++ String.intercalate "/" place

/-- Where the names of a path lead one after another, the start included. -/
def stops (p : Path) : List Location :=
  (p.names.foldl (fun (here, passed) name =>
    let next := if name = "." then here else if name = ".." then here.dropLast else here ++ [name]
    (next, passed ++ [next])) (p.origin, [p.origin])).2

/-- The disk as far as a path may lead: what stands at each of its stops. -/
def survey (p : Path) : IO Disk := do
  let mut disk : Disk := {}
  for place in stops p do
    if ← isDirectory (pathText place) then disk := disk.put place .directory
    else if let .ok content ← fetch (pathText place) then disk := disk.put place (.file content)
  return disk

/-- Makes the world agree with what stands at the stops of a path. -/
def save (p : Path) (before after : Disk) : IO Unit := do
  for place in stops p do
    if before.node? place ≠ after.node? place then
      match after.node? place with
      | some (.file content) => IO.FS.writeBinFile (pathText place) ⟨content.toArray⟩
      | none => IO.FS.removeFile (pathText place)
      | _ => return

/-- Lets a service do what it can, and saves its data file. -/
def proceed (p : Path) (s : Service) (events : List ServiceEvent) : IO Service := do
  let after := ((s.run? events).getD s).settle
  save p s.log.disk after.log.disk
  return after

/-- Serves the session at a seat from the standard streams until it has ended. -/
partial def converse (p : Path) (seat : Nat) (s : Service) : IO Service := do
  let input ← IO.getStdin
  let output ← IO.getStdout
  match s.log.session? seat with
  | none => return s
  | some session =>
    match session.stage with
    | .receiving =>
      let chunk ← input.read (USize.ofNat session.readSize)
      converse p seat (← proceed p s [.log (.receive seat (.ok chunk.toList))])
    | .echoing left =>
      output.write ⟨left.toArray⟩
      converse p seat (← proceed p s [.log (.send seat (.ok left.length))])
    | .flushing =>
      output.flush
      converse p seat (← proceed p s [.log (.flush seat (.ok ()))])
    | _ => return s

/-- The lines that tell what is going to be done. -/
def announcement (s : Settings) : List String :=
  ["Listen address: " ++ s.listenAddress, "Data file: " ++ s.storage.dataFile,
    "Max connections: " ++ numeral 10 s.server.maxConnections]

/-- One line for each switch. -/
def summary : List String :=
  about :: "" :: ("Usage: " ++ name ++ " [OPTIONS]") :: "" :: Switch.all.map fun s =>
    "  -" ++ String.singleton s.names.2 ++ ", --" ++ s.names.1 ++
      (if s.takesValue then " <VALUE>" else "")

/-- Starts a service, serves one session and stops it: what the service returned. -/
def serveOne (a : Arguments) (settings : Settings) (directory : Location) :
    IO (Except Failure Unit) := do
  let directory := startDirectory a directory
  let path : Path := ⟨directory, settings.storage.dataFile⟩
  let disk ← survey path
  match Service.bind settings (fun _ => none) directory disk with
  | .failed f _ => return .error f
  | .broken _ => throw (IO.userError "too many worker slots")
  | .started s =>
    save path disk s.log.disk
    let s ← proceed path s [.begin 0 0]
    let seat := s.log.seats.length
    let s ← proceed path s [.accept (.quad 127 0 0 1 0) 0]
    let s ← converse path seat s
    let s ← proceed path s [.signal]
    return s.result?.getD (.ok ())

end EchoLog.Command

/-- The command line. -/
def main (args : List String) : IO UInt32 := do
  let complain (text : String) : IO Unit := do (← IO.getStderr).putStrLn text
  match EchoLog.Command.Arguments.read args with
  | .error .help => EchoLog.Command.summary.forM (IO.println ·); return 0
  | .error .version => IO.println EchoLog.Command.versionLine; return 0
  | .error .mistake => EchoLog.Command.summary.forM complain; return 2
  | .ok a =>
    let directory := (⟨[], toString (← IO.currentDir)⟩ : EchoLog.Path).names
    let file : EchoLog.Path := ⟨directory, a.config.getD EchoLog.Command.defaultConfig⟩
    let disk ← EchoLog.Command.survey file
    match EchoLog.Command.loadSettings a (EchoLog.Command.contentAt? disk file) with
    | .error fault =>
      complain (EchoLog.Command.name ++ ": " ++ (EchoLog.Failure.config fault).message)
      return 1
    | .ok settings =>
      let settings := { settings with timestamp.enabled := false }
      (EchoLog.Command.announcement settings).forM complain
      match ← EchoLog.Command.serveOne a settings directory with
      | .ok _ => return 0
      | .error f =>
        complain ("Server error: " ++ f.message)
        return 1
