import EchoLog.IoError
/-!
# Paths

A path is a text, and a directory where a text starts that does not start at the root.  Its names
stand between its slashes; what they lead to is a question to the disk, and the answer may change
between two uses of the same path.  Only the texts that no disk takes are refused here.
-/

namespace EchoLog

/-- Where something stands: the names of the directories that lead to it from the root, and its own. -/
abbrev Location := List String

/-- A path. -/
structure Path where
  /-- The directory where a relative text starts. -/
  start : Location
  text : String
deriving DecidableEq, Repr

namespace Path

/-- The most bytes in the text of a path. -/
def maxLength : Nat := 4095

/-- The most bytes in one name. -/
def maxName : Nat := 255

/-- The pieces between the slashes of a text. -/
def pieces : List Char → List (List Char)
  | [] => [[]]
  | c :: cs =>
    if c = '/' then [] :: pieces cs
    else
      match pieces cs with
      | [] => [[c]]
      | piece :: rest => (c :: piece) :: rest

/-- The names of a path in their order.  Slashes in a row part names like one slash. -/
def names (p : Path) : List String :=
  ((pieces p.text.toList).filter (!·.isEmpty)).map String.ofList

/-- Where the names start: at the root if the text starts with a slash. -/
def origin (p : Path) : Location :=
  if p.text.toList.head? = some '/' then [] else p.start

/-- Whether a slash follows the last name: only a directory can be meant then. -/
def endsInSlash (p : Path) : Bool :=
  p.text.toList.getLast? = some '/'

/-- Why the system does not take a text for a path at all, if it does not. -/
def refusal? (p : Path) : Option IoError :=
  if p.text.toList.contains '\x00' then some .zeroByteInName
  else if p.text.isEmpty then some .missingEntry
  else if maxLength < p.text.utf8ByteSize then some .nameTooLong
  else none

/-- The names that lead to the directory that holds what the path names, dots left out. -/
def above (p : Path) : List String :=
  (p.names.filter (· ≠ ".")).dropLast

end Path

end EchoLog
