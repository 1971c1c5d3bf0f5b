import EchoLog.Failure
/-!
# Notices

What the service reports to its operator, kept as its cause.  Each notice has a level, a wording and
fields.
-/

namespace EchoLog

/-- How urgent a notice is. -/
inductive Level where
  | warning
  | error
deriving DecidableEq, Repr

/-- The value of a notice's field. -/
inductive FieldValue where
  | number (n : Nat)
  | text (s : String)
deriving DecidableEq, Repr

/-- A report to the operator. -/
inductive Notice where
  /-- A failed append was undone. -/
  | cutBack (cause : IoError) (committed : Nat)
  /-- A failed append could not be undone. -/
  | notCutBack (cause : IoError) (committed : Nat)
  /-- A peer sent a zero byte. -/
  | zeroByte (peer : Endpoint) (position : Nat)
  /-- A session outlives the drain. -/
  | straggler (peer : Endpoint)
  /-- A failure stops the service. -/
  | fatal (failure : Failure)
  /-- A failure ended one task. -/
  | taskEnded (failure : Failure)
  /-- The service stops because of a failure. -/
  | stopping (failure : Failure)
  /-- Tasks outlive the drain. -/
  | tasksRunning (remaining : Nat)
  /-- A failure was reported too late to matter. -/
  | late (failure : Failure)
  /-- The log file could not be removed. -/
  | removalFailed (failure : Failure)
  /-- A connection could not be accepted, and the next one may be. -/
  | acceptFailed (cause : IoError)
deriving DecidableEq, Repr

namespace Notice

/-- The level of a notice. -/
def level : Notice → Level
  | fatal _ => .error
  | stopping _ => .error
  | removalFailed _ => .error
  | _ => .warning

/-- The wording of a notice. -/
def message : Notice → String
  | cutBack _ _ => "append failed, log cut back to last commit"
  | notCutBack _ _ => "append failed and could not be rolled back"
  | zeroByte _ _ => "received chunk contains NUL byte"
  | straggler _ => "session still running after drain timeout"
  | fatal _ => "fatal error, requesting shutdown"
  | taskEnded _ => "task ended with error, service continues"
  | stopping _ => "stopping after fatal error"
  | tasksRunning _ => "tasks still running after drain timeout"
  | late _ => "error reported during shutdown"
  | removalFailed _ => "failed to remove log file"
  | acceptFailed _ => "accept failed, continuing"

/-- The fields of a notice. -/
def fields : Notice → List (String × FieldValue)
  | cutBack cause committed => [("error", .text cause.text), ("committed", .number committed)]
  | notCutBack cause committed => [("error", .text cause.text), ("committed", .number committed)]
  | zeroByte peer position => [("peer", .text peer.text), ("position", .number position)]
  | straggler peer => [("peer", .text peer.text)]
  | fatal failure => [("error", .text failure.message)]
  | taskEnded failure => [("error", .text failure.message)]
  | stopping failure => [("error", .text failure.message)]
  | tasksRunning remaining => [("remaining", .number remaining)]
  | late failure => [("error", .text failure.message)]
  | removalFailed failure => [("error", .text failure.message)]
  | acceptFailed cause => [("error", .text cause.text)]

end Notice

end EchoLog
