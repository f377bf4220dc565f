/-!
# Switches

The options of the command line and their spellings.  An option has one dash and a letter, or two
dashes and a word, or both.
-/

set_option autoImplicit false

namespace Intel8085.Shell

inductive Switch where
  | help
  | output
  | format
  | profile
  | run
  | maxSteps
  | trace
  | dumpMemory
  | disassemble
  | verbose
  | quiet
  | logFile
  | version
  deriving DecidableEq, Repr

namespace Switch

def spellings : List (String × Switch) :=
  [("-h", .help), ("--help", .help), ("-o", .output), ("--output", .output), ("--format", .format),
    ("--profile", .profile), ("--run", .run), ("--max-steps", .maxSteps), ("--trace", .trace),
    ("--dump-memory", .dumpMemory), ("--disasm", .disassemble), ("-v", .verbose),
    ("--verbose", .verbose), ("-q", .quiet), ("--quiet", .quiet), ("--log-file", .logFile),
    ("--version", .version)]

def takesValue : Switch → Bool
  | .output => true
  | .format => true
  | .profile => true
  | .maxSteps => true
  | .dumpMemory => true
  | .logFile => true
  | _ => false

def ofSpelling? (spelling : List Char) : Option Switch :=
  spellings.lookup (String.ofList spelling)

def ofLetter? (letter : Char) : Option Switch :=
  ofSpelling? ['-', letter]

/-- The options with a spelling that goes on as given, each as often as it has one. -/
def beginningWith (start : List Char) : List Switch :=
  (spellings.filter fun entry => start.isPrefixOf entry.1.toList).map fun entry => entry.2

end Switch

end Intel8085.Shell
