import EchoLog.Disk.Basic
/-!
# Changes from outside

What another process may do to the log file, which it knows by a path, between two steps of the
service.  A change that the disk refuses changes nothing, and the limit of the disk holds for everybody.
-/

namespace EchoLog

/-- A change by another process to the file of a path. -/
inductive Change where
  /-- Removes the file, if it is there. -/
  | delete
  /-- Creates the file or replaces its content. -/
  | write (content : Bytes)
  /-- Appends to the file, creating it if needed. -/
  | append (content : Bytes)
  /-- Sets the length of the file. -/
  | truncate (length : Nat)
  /-- Puts an empty directory in its place. -/
  | makeDirectory
  /-- Removes that directory, if it is empty. -/
  | removeDirectory
  /-- Removes the directory that holds the file, with everything inside. -/
  | deleteParent
  /-- Creates the directory that holds the file, and those above it. -/
  | makeParent
deriving DecidableEq, Repr

namespace Disk

/-- Changes what a path leads to, if it leads anywhere. -/
def modify (d : Disk) (p : Path) (f : Node → Node × Option IoError) : Disk :=
  match d.find p with
  | .ok (place, node) => d.put place (f node).1
  | .error _ => d

/-- Creates the file of a path, or empties it, if the disk allows. -/
def renew (d : Disk) (p : Path) : Disk :=
  (d.create p).toOption.getD d

/-- Whether nothing stands beneath a location. -/
def isBare (d : Disk) (place : Location) : Bool :=
  d.nodes.all fun e => !(place.isPrefixOf e.1 && e.1 ≠ place)

/-- Takes away everything beneath a location. -/
def clearBeneath (d : Disk) (place : Location) : Disk :=
  { d with nodes := d.nodes.filter fun e => !(place.isPrefixOf e.1 && e.1 ≠ place) }

/-- Follows names and creates the directories that are missing, up to the first name that cannot be
followed. -/
def makeAll (d : Disk) (here : Location) : List String → Disk
  | [] => d
  | name :: rest =>
    match d.enter here name with
    | .ok next => d.makeAll next rest
    | .error _ =>
      match d.child here name with
      | .ok none => (d.put (here ++ [name]) .directory).makeAll (here ++ [name]) rest
      | _ => d

end Disk

namespace Change

/-- The disk after a change. -/
def apply (c : Change) (d : Disk) (p : Path) : Disk :=
  match c with
  | .delete => (d.unlink p).toOption.getD d
  | .write content => (d.renew p).modify p (Node.append d.limit content)
  | .append content =>
    let made := if (d.find p).toOption.isSome then d else d.renew p
    made.modify p (Node.append d.limit content)
  | .truncate length => d.modify p (Node.resize d.limit length)
  | .makeDirectory =>
    match d.spot p with
    | .ok (.entry folder name _) =>
      if (d.child folder name).toOption.isSome then
        (d.clearTree (folder ++ [name])).put (folder ++ [name]) .directory
      else d
    | _ => d
  | .removeDirectory =>
    match d.spot p, d.find p with
    | .ok (.entry _ _ _), .ok (place, .directory) => if d.isBare place then d.clear place else d
    | _, _ => d
  | .deleteParent =>
    match p.refusal?, p.above.getLast?, d.follow p.origin p.above with
    | none, some last, .ok place => if last = ".." then d.clearBeneath place else d.clearTree place
    | _, _, _ => d
  | .makeParent => if p.refusal?.isSome then d else d.makeAll p.origin p.above

end Change

end EchoLog
