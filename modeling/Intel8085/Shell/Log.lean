import Intel8085.Shell.Options

/-!
# Log records

While it works the program tells what it does in records, each with its origin and its level.  The
console shows the records from a level on that the options choose; a log file takes all of them.
-/

set_option autoImplicit false

namespace Intel8085.Shell

inductive Level where
  | debug
  | info
  | warning
  | error
  deriving DecidableEq, Repr

def Level.name : Level → String
  | .debug => "DEBUG"
  | .info => "INFO"
  | .warning => "WARNING"
  | .error => "ERROR"

/-- The rank of a level; what matters more has the higher rank. -/
def Level.rank : Level → Nat
  | .debug => 0
  | .info => 1
  | .warning => 2
  | .error => 3

inductive Origin where
  | shell
  | assembler
  | machine
  deriving DecidableEq, Repr

def Origin.name : Origin → String
  | .shell => "sim85"
  | .assembler => "sim8085.assembler"
  | .machine => "sim8085.emu"

structure Record where
  origin : Origin
  level : Level
  text : String
  deriving DecidableEq, Repr

def Record.consoleLine (record : Record) : String :=
  record.level.name ++ ": " ++ record.text

def Record.fileLine (record : Record) : String :=
  record.origin.name ++ " - " ++ record.level.name ++ " - " ++ record.text

def Options.consoleLevel (options : Options) : Level :=
  if options.quiet then .error
  else
    match options.verbosity with
    | 0 => .warning
    | 1 => .info
    | _ => .debug

def Options.showsLevel (options : Options) (level : Level) : Bool :=
  options.consoleLevel.rank ≤ level.rank

/-- The name of the log file; an empty one is none. -/
def Options.logName (options : Options) : Option String :=
  options.logFile.filter fun name => !name.isEmpty

def Options.hears (options : Options) (level : Level) : Bool :=
  options.logName.isSome || options.showsLevel level

end Intel8085.Shell
