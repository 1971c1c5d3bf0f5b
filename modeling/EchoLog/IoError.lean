/-!
# Input and output errors

An error of the operating system keeps its number, an error of the service's own reading and writing
keeps its kind, and either may carry a text of its own.  `IoError.text` is the wording that reaches
logs and clients.
-/

namespace EchoLog

/-- What went wrong, as far as a caller may act on it. -/
inductive IoKind where
  | notFound
  | permissionDenied
  | connectionRefused
  | connectionReset
  | connectionAborted
  | notConnected
  | addressInUse
  | addressNotAvailable
  | brokenPipe
  | alreadyExists
  | wouldBlock
  | invalidInput
  | invalidData
  | timedOut
  | writeZero
  | interrupted
  | unsupported
  | unexpectedEof
  | outOfMemory
  | other
deriving DecidableEq, Repr

/-- The fixed description of a kind. -/
def IoKind.text : IoKind → String
  | .notFound => "entity not found"
  | .permissionDenied => "permission denied"
  | .connectionRefused => "connection refused"
  | .connectionReset => "connection reset"
  | .connectionAborted => "connection aborted"
  | .notConnected => "not connected"
  | .addressInUse => "address in use"
  | .addressNotAvailable => "address not available"
  | .brokenPipe => "broken pipe"
  | .alreadyExists => "entity already exists"
  | .wouldBlock => "operation would block"
  | .invalidInput => "invalid input parameter"
  | .invalidData => "invalid data"
  | .timedOut => "timed out"
  | .writeZero => "write zero"
  | .interrupted => "operation interrupted"
  | .unsupported => "unsupported"
  | .unexpectedEof => "unexpected end of file"
  | .outOfMemory => "out of memory"
  | .other => "other error"

/-- An input or output error. -/
inductive IoError where
  /-- An error number of the operating system. -/
  | os (code : Nat)
  /-- An error that is only its kind. -/
  | ofKind (kind : IoKind)
  /-- An error with a text of its own. -/
  | custom (kind : IoKind) (message : String)
deriving DecidableEq, Repr

/-- What the system calls an error number. -/
def osErrorName : Nat → String
  | 0 => "Success"
  | 1 => "Operation not permitted"
  | 2 => "No such file or directory"
  | 3 => "No such process"
  | 4 => "Interrupted system call"
  | 5 => "Input/output error"
  | 6 => "No such device or address"
  | 7 => "Argument list too long"
  | 8 => "Exec format error"
  | 9 => "Bad file descriptor"
  | 10 => "No child processes"
  | 11 => "Resource temporarily unavailable"
  | 12 => "Cannot allocate memory"
  | 13 => "Permission denied"
  | 14 => "Bad address"
  | 15 => "Block device required"
  | 16 => "Device or resource busy"
  | 17 => "File exists"
  | 18 => "Invalid cross-device link"
  | 19 => "No such device"
  | 20 => "Not a directory"
  | 21 => "Is a directory"
  | 22 => "Invalid argument"
  | 23 => "Too many open files in system"
  | 24 => "Too many open files"
  | 25 => "Inappropriate ioctl for device"
  | 26 => "Text file busy"
  | 27 => "File too large"
  | 28 => "No space left on device"
  | 29 => "Illegal seek"
  | 30 => "Read-only file system"
  | 31 => "Too many links"
  | 32 => "Broken pipe"
  | 33 => "Numerical argument out of domain"
  | 34 => "Numerical result out of range"
  | 35 => "Resource deadlock avoided"
  | 36 => "File name too long"
  | 37 => "No locks available"
  | 38 => "Function not implemented"
  | 39 => "Directory not empty"
  | 40 => "Too many levels of symbolic links"
  | 42 => "No message of desired type"
  | 43 => "Identifier removed"
  | 44 => "Channel number out of range"
  | 45 => "Level 2 not synchronized"
  | 46 => "Level 3 halted"
  | 47 => "Level 3 reset"
  | 48 => "Link number out of range"
  | 49 => "Protocol driver not attached"
  | 50 => "No CSI structure available"
  | 51 => "Level 2 halted"
  | 52 => "Invalid exchange"
  | 53 => "Invalid request descriptor"
  | 54 => "Exchange full"
  | 55 => "No anode"
  | 56 => "Invalid request code"
  | 57 => "Invalid slot"
  | 59 => "Bad font file format"
  | 60 => "Device not a stream"
  | 61 => "No data available"
  | 62 => "Timer expired"
  | 63 => "Out of streams resources"
  | 64 => "Machine is not on the network"
  | 65 => "Package not installed"
  | 66 => "Object is remote"
  | 67 => "Link has been severed"
  | 68 => "Advertise error"
  | 69 => "Srmount error"
  | 70 => "Communication error on send"
  | 71 => "Protocol error"
  | 72 => "Multihop attempted"
  | 73 => "RFS specific error"
  | 74 => "Bad message"
  | 75 => "Value too large for defined data type"
  | 76 => "Name not unique on network"
  | 77 => "File descriptor in bad state"
  | 78 => "Remote address changed"
  | 79 => "Can not access a needed shared library"
  | 80 => "Accessing a corrupted shared library"
  | 81 => ".lib section in a.out corrupted"
  | 82 => "Attempting to link in too many shared libraries"
  | 83 => "Cannot exec a shared library directly"
  | 84 => "Invalid or incomplete multibyte or wide character"
  | 85 => "Interrupted system call should be restarted"
  | 86 => "Streams pipe error"
  | 87 => "Too many users"
  | 88 => "Socket operation on non-socket"
  | 89 => "Destination address required"
  | 90 => "Message too long"
  | 91 => "Protocol wrong type for socket"
  | 92 => "Protocol not available"
  | 93 => "Protocol not supported"
  | 94 => "Socket type not supported"
  | 95 => "Operation not supported"
  | 96 => "Protocol family not supported"
  | 97 => "Address family not supported by protocol"
  | 98 => "Address already in use"
  | 99 => "Cannot assign requested address"
  | 100 => "Network is down"
  | 101 => "Network is unreachable"
  | 102 => "Network dropped connection on reset"
  | 103 => "Software caused connection abort"
  | 104 => "Connection reset by peer"
  | 105 => "No buffer space available"
  | 106 => "Transport endpoint is already connected"
  | 107 => "Transport endpoint is not connected"
  | 108 => "Cannot send after transport endpoint shutdown"
  | 109 => "Too many references: cannot splice"
  | 110 => "Connection timed out"
  | 111 => "Connection refused"
  | 112 => "Host is down"
  | 113 => "No route to host"
  | 114 => "Operation already in progress"
  | 115 => "Operation now in progress"
  | 116 => "Stale file handle"
  | 117 => "Structure needs cleaning"
  | 118 => "Not a XENIX named type file"
  | 119 => "No XENIX semaphores available"
  | 120 => "Is a named type file"
  | 121 => "Remote I/O error"
  | 122 => "Disk quota exceeded"
  | 123 => "No medium found"
  | 124 => "Wrong medium type"
  | 125 => "Operation canceled"
  | 126 => "Required key not available"
  | 127 => "Key has expired"
  | 128 => "Key has been revoked"
  | 129 => "Key was rejected by service"
  | 130 => "Owner died"
  | 131 => "State not recoverable"
  | 132 => "Operation not possible due to RF-kill"
  | 133 => "Memory page has hardware error"
  | code => s!"Unknown error {code}"

namespace IoError

/-- No such file or directory. -/
def missingEntry : IoError := .os 2

/-- Not a directory. -/
def notDirectory : IoError := .os 20

/-- Is a directory. -/
def isDirectory : IoError := .os 21

/-- Invalid argument. -/
def invalidArgument : IoError := .os 22

/-- File name too long. -/
def nameTooLong : IoError := .os 36

/-- A name with a zero byte, which the system cannot be asked for. -/
def zeroByteInName : IoError := .custom .invalidInput "file name contained an unexpected NUL byte"

/-- File too large. -/
def fileTooLarge : IoError := .os 27

/-- No space left on device. -/
def noSpace : IoError := .os 28

/-- Broken pipe. -/
def brokenPipe : IoError := .os 32

/-- Address already in use. -/
def addressInUse : IoError := .os 98

/-- Network is unreachable. -/
def networkUnreachable : IoError := .os 101

/-- Connection reset by peer. -/
def connectionReset : IoError := .os 104

/-- Connection refused. -/
def connectionRefused : IoError := .os 111

/-- The kind of an error; numbers that callers never act on count as `other`. -/
def kind : IoError → IoKind
  | .ofKind k => k
  | .custom k _ => k
  | .os 1 => .permissionDenied
  | .os 2 => .notFound
  | .os 4 => .interrupted
  | .os 11 => .wouldBlock
  | .os 12 => .outOfMemory
  | .os 13 => .permissionDenied
  | .os 17 => .alreadyExists
  | .os 22 => .invalidInput
  | .os 32 => .brokenPipe
  | .os 38 => .unsupported
  | .os 95 => .unsupported
  | .os 98 => .addressInUse
  | .os 99 => .addressNotAvailable
  | .os 103 => .connectionAborted
  | .os 104 => .connectionReset
  | .os 107 => .notConnected
  | .os 110 => .timedOut
  | .os 111 => .connectionRefused
  | .os _ => .other

/-- The wording of an error. -/
def text : IoError → String
  | .os code => s!"{osErrorName code} (os error {code})"
  | .ofKind k => k.text
  | .custom _ message => message

/-- Whether a listener survives this error of accepting a connection. -/
def isTransient (e : IoError) : Bool :=
  e.kind matches .connectionAborted | .connectionReset | .interrupted | .wouldBlock

end IoError

end EchoLog
