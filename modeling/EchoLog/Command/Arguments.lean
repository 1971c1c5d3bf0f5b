import EchoLog.Net.Resolve
/-!
# Command-line arguments

A switch is written long (`--port 80`, `--port=80`) or short (`-p 80`, `-p80`, `-p=80`), and short
switches without a value may share one dash (`-dv`).  Arguments are read from left to right and the
first thing that ends the reading decides: a mistake, or a switch that asks for help or the version.
-/

namespace EchoLog.Command

/-- The switches of the command line. -/
inductive Switch where
  | daemon
  | config
  | bind
  | port
  | dataFile
  | verbose
  | help
  | version
deriving DecidableEq, Repr

namespace Switch

/-- Long name and short name. -/
def names : Switch → String × Char
  | daemon => ("daemon", 'd')
  | config => ("config", 'c')
  | bind => ("bind", 'b')
  | port => ("port", 'p')
  | dataFile => ("data-file", 'f')
  | verbose => ("verbose", 'v')
  | help => ("help", 'h')
  | version => ("version", 'V')

/-- All switches, as a summary lists them. -/
def all : List Switch :=
  [daemon, config, bind, port, dataFile, verbose, help, version]

/-- Whether a switch is followed by a value. -/
def takesValue : Switch → Bool
  | config => true
  | bind => true
  | port => true
  | dataFile => true
  | _ => false

/-- The switch with a long name. -/
def ofLong? (name : List Char) : Option Switch :=
  all.find? fun s => s.names.1.toList = name

/-- The switch with a short name. -/
def ofShort? (c : Char) : Option Switch :=
  all.find? fun s => s.names.2 = c

end Switch

/-- What ends the reading of arguments early. -/
inductive Early where
  /-- The arguments are no use of the command. -/
  | mistake
  | help
  | version
deriving DecidableEq, Repr

/-- What the arguments say. -/
structure Arguments where
  daemon : Bool := false
  verbose : Bool := false
  config : Option String := none
  bind : Option String := none
  port : Option UInt16 := none
  dataFile : Option String := none
deriving DecidableEq, Repr

/-- Where the configuration file is unless the arguments say otherwise. -/
def defaultConfig : String := "config/server.toml"

/-- A port in decimal; a sign may stand in front. -/
def port? (text : String) : Option UInt16 :=
  let (negative, digits) := match text.toList with
    | '-' :: rest => (true, rest)
    | '+' :: rest => (false, rest)
    | cs => (false, cs)
  if digits.isEmpty || !digits.all (isDigitOf 10) then none
  else
    let value := digitsValue 10 digits
    if value > 65535 || (negative && value ≠ 0) then none else some value.toUInt16

/-- Stores a value that may be given once. -/
def once {α : Type} (old : Option α) (new : Option α) : Except Early (Option α) :=
  if old.isSome || new.isNone then .error .mistake else .ok new

/-- Raises a flag that may be raised once. -/
def raiseOnce (flag : Bool) : Except Early Bool :=
  if flag then .error .mistake else .ok true

/-- A path in an argument is not empty. -/
def pathValue? (text : String) : Option String :=
  if text.isEmpty then none else some text

namespace Arguments

/-- A switch that takes a value gets it. -/
def assign (a : Arguments) (s : Switch) (value : String) : Except Early Arguments :=
  match s with
  | .config => (once a.config (pathValue? value)).map fun v => { a with config := v }
  | .bind => (once a.bind (some value)).map fun v => { a with bind := v }
  | .port => (once a.port (port? value)).map fun v => { a with port := v }
  | .dataFile => (once a.dataFile (pathValue? value)).map fun v => { a with dataFile := v }
  | _ => .error .mistake

/-- A switch that takes no value is met. -/
def raise (a : Arguments) (s : Switch) : Except Early Arguments :=
  match s with
  | .daemon => (raiseOnce a.daemon).map fun v => { a with daemon := v }
  | .verbose => (raiseOnce a.verbose).map fun v => { a with verbose := v }
  | .help => .error .help
  | .version => .error .version
  | _ => .error .mistake

/-- A long switch, without its dashes.  The result names the switch that waits for a value, if one
does. -/
def readLong (a : Arguments) (text : List Char) : Except Early (Arguments × Option Switch) :=
  match Switch.ofLong? (text.takeWhile (· ≠ '=')), text.dropWhile (· ≠ '=') with
  | none, _ => .error .mistake
  | some s, [] => if s.takesValue then .ok (a, some s) else (a.raise s).map (·, none)
  | some s, _ :: value =>
    if s.takesValue then (a.assign s (String.ofList value)).map (·, none) else .error .mistake

/-- Short switches, without their dash.  What follows a switch that takes a value is the value. -/
def readShort (a : Arguments) : List Char → Except Early (Arguments × Option Switch)
  | [] => .ok (a, none)
  | c :: rest =>
    match Switch.ofShort? c with
    | none => .error .mistake
    | some s =>
      if s.takesValue then
        match rest with
        | [] => .ok (a, some s)
        | '=' :: value => (a.assign s (String.ofList value)).map (·, none)
        | value => (a.assign s (String.ofList value)).map (·, none)
      else (a.raise s).bind fun a => readShort a rest

/-- Whether an argument of its own can be a value: it does not look like a switch. -/
def isValue (text : String) : Bool :=
  match text.toList with
  | '-' :: _ :: _ => false
  | _ => true

/-- Reads arguments; `waiting` is the switch that waits for its value.  Nothing may stand for
itself. -/
def readOn (a : Arguments) : (waiting : Option Switch) → List String → Except Early Arguments
  | none, [] => .ok a
  | some _, [] => .error .mistake
  | some s, value :: rest =>
    if isValue value then (a.assign s value).bind fun a => readOn a none rest else .error .mistake
  | none, text :: rest =>
    match text.toList with
    | '-' :: '-' :: [] => if rest.isEmpty then .ok a else .error .mistake
    | '-' :: '-' :: long => (a.readLong long).bind fun (a, waiting) => readOn a waiting rest
    | '-' :: c :: short => (a.readShort (c :: short)).bind fun (a, waiting) => readOn a waiting rest
    | _ => .error .mistake

/-- Reads all arguments. -/
def read (args : List String) : Except Early Arguments :=
  readOn {} none args

end Arguments

end EchoLog.Command
