import EchoLog.Bytes
import EchoLog.Disk.Path
/-!
# The disk

What stands at each location: files, directories and a device that is always full.  A limit may bound
every file: a write that crosses it stores what fits and then fails.

The operations come in two layers.  Those on a `Node` say what writing, cutting and syncing do to an
open file; those on a `Disk` follow the names of a path and refuse what cannot be opened.  A name that
is not the last has to lead to a directory, also when two dots come after it.
-/

namespace EchoLog

/-- What stands at a location. -/
inductive Node where
  | file (content : Bytes)
  | directory
  /-- A device that takes no byte and cannot be cut or synced. -/
  | full
deriving DecidableEq, Repr

namespace Node

/-- Appends bytes: the node after it, and the error if not all of them were stored. -/
def append (limit : Option Nat) (bytes : Bytes) : Node → Node × Option IoError
  | .file content =>
    match limit with
    | none => (.file (content ++ bytes), none)
    | some most =>
      if bytes.isEmpty || content.length + bytes.length ≤ most then
        (.file (content ++ bytes), none)
      else (.file (content ++ bytes.take (most - content.length)), some .fileTooLarge)
  | .directory => (.directory, some .isDirectory)
  | .full => (.full, if bytes.isEmpty then none else some .noSpace)

/-- Sets the length: cuts the content, or fills it with zero bytes as far as the limit allows. -/
def resize (limit : Option Nat) (length : Nat) : Node → Node × Option IoError
  | .file content =>
    if length ≤ content.length then (.file (content.take length), none)
    else if limit.any (· < length) then (.file content, some .fileTooLarge)
    else (.file (content ++ List.replicate (length - content.length) 0), none)
  | .directory => (.directory, some .isDirectory)
  | .full => (.full, some .invalidArgument)

/-- Whether the content can be forced to the medium. -/
def syncError : Node → Option IoError
  | .file _ => none
  | .directory => none
  | .full => some .invalidArgument

end Node

/-- The nodes of all locations, and the length that no file may pass. -/
structure Disk where
  nodes : List (Location × Node) := []
  limit : Option Nat := none
deriving Repr

/-- What a path comes to when all but its last name have been followed. -/
inductive Spot where
  /-- A directory that is there: the root, or one that dots lead to. -/
  | folder (place : Location)
  /-- A name in a directory that is there; with a slash after it, it has to be a directory too. -/
  | entry (folder : Location) (name : String) (slash : Bool)
deriving DecidableEq, Repr

namespace Disk

/-- What stands at a location; the root is always a directory. -/
def node? (d : Disk) (place : Location) : Option Node :=
  if place.isEmpty then some .directory else d.nodes.lookup place

/-- Puts a node at a location in place of what stood there. -/
def put (d : Disk) (place : Location) (n : Node) : Disk :=
  { d with nodes := (place, n) :: d.nodes.filter (·.1 ≠ place) }

/-- Takes away what stands at a location. -/
def clear (d : Disk) (place : Location) : Disk :=
  { d with nodes := d.nodes.filter (·.1 ≠ place) }

/-- Takes away a location and everything beneath it. -/
def clearTree (d : Disk) (place : Location) : Disk :=
  { d with nodes := d.nodes.filter fun e => !place.isPrefixOf e.1 }

/-- What a directory holds under a name; a name may be too long to be asked for. -/
def child (d : Disk) (folder : Location) (name : String) : Except IoError (Option Node) :=
  if Path.maxName < name.utf8ByteSize then .error .nameTooLong
  else .ok (d.node? (folder ++ [name]))

/-- Follows a name that has to lead to a directory.  One dot stays and two dots lead up; the root is
above itself. -/
def enter (d : Disk) (here : Location) (name : String) : Except IoError Location :=
  if name = "." then .ok here
  else if name = ".." then .ok here.dropLast
  else
    match d.child here name with
    | .error cause => .error cause
    | .ok none => .error .missingEntry
    | .ok (some .directory) => .ok (here ++ [name])
    | .ok (some _) => .error .notDirectory

/-- Follows names one after another. -/
def follow (d : Disk) (here : Location) (names : List String) : Except IoError Location :=
  names.foldlM d.enter here

/-- Follows all names of a path but the last. -/
def spot (d : Disk) (p : Path) : Except IoError Spot :=
  match p.refusal?, p.names.getLast? with
  | some cause, _ => .error cause
  | none, none => .ok (.folder p.origin)
  | none, some last =>
    (d.follow p.origin p.names.dropLast).map fun here =>
      if last = "." then .folder here
      else if last = ".." then .folder here.dropLast
      else .entry here last p.endsInSlash

/-- What a path leads to: the location and what stands there. -/
def find (d : Disk) (p : Path) : Except IoError (Location × Node) :=
  match d.spot p with
  | .error cause => .error cause
  | .ok (.folder place) => .ok (place, .directory)
  | .ok (.entry folder name slash) =>
    match d.child folder name with
    | .error cause => .error cause
    | .ok none => .error .missingEntry
    | .ok (some node) =>
      if slash && node ≠ .directory then .error .notDirectory else .ok (folder ++ [name], node)

/-- Creates an empty file, or empties the one that is there.  A slash at the end is refused before the
last name is looked for. -/
def create (d : Disk) (p : Path) : Except IoError Disk :=
  match d.spot p with
  | .error cause => .error cause
  | .ok (.folder _) => .error .isDirectory
  | .ok (.entry folder name slash) =>
    if slash then .error .isDirectory
    else
      match d.child folder name with
      | .error cause => .error cause
      | .ok none => .ok (d.put (folder ++ [name]) (.file []))
      | .ok (some (.file _)) => .ok (d.put (folder ++ [name]) (.file []))
      | .ok (some .directory) => .error .isDirectory
      | .ok (some .full) => .ok d

/-- What a path leads to if it is no directory. -/
def findFile (d : Disk) (p : Path) : Except IoError (Location × Node) :=
  match d.find p with
  | .ok (_, .directory) => .error .isDirectory
  | found => found

/-- Opens a file for appending: the location that it is opened at. -/
def openToAppend (d : Disk) (p : Path) : Except IoError Location :=
  (d.findFile p).map (·.1)

/-- The content of a file.  The full device has no end to read to. -/
def read (d : Disk) (p : Path) : Except IoError Bytes :=
  match d.findFile p with
  | .error cause => .error cause
  | .ok (_, .file content) => .ok content
  | .ok _ => .error (.ofKind .outOfMemory)

/-- Removes a file. -/
def unlink (d : Disk) (p : Path) : Except IoError Disk :=
  (d.findFile p).map fun (place, _) => d.clear place

end Disk

/-- An open file: the node at the location it was opened at, or a node that has lost its location
since. -/
inductive Handle where
  | linked (place : Location)
  | orphan (node : Node)
deriving DecidableEq, Repr

namespace Handle

/-- Changes the node that a handle stands for; the change may report an error. -/
def change (h : Handle) (d : Disk) (f : Node → Node × Option IoError) :
    Handle × Disk × Option IoError :=
  match h with
  | .orphan node => (.orphan (f node).1, d, (f node).2)
  | .linked place =>
    match d.node? place with
    | some node => (h, d.put place (f node).1, (f node).2)
    | none => (h, d, none)

/-- The node that a handle stands for. -/
def node? (h : Handle) (d : Disk) : Option Node :=
  match h with
  | .orphan node => some node
  | .linked place => d.node? place

/-- The handle after the disk was changed by another process: when its location holds nothing any
more, or a directory, it keeps the node that stood there. -/
def keep (h : Handle) (before after : Disk) : Handle :=
  match h with
  | .orphan _ => h
  | .linked place =>
    match before.node? place, after.node? place with
    | some node, none => .orphan node
    | some node, some .directory => .orphan node
    | _, _ => h

end Handle

end EchoLog
