import Intel8085.Machine.Config
import Intel8085.Shell.Argument
import Intel8085.Shell.Piece

/-!
# Options

The arguments of the program are one input file and options in any order; the pieces of the command
line are obeyed from the left.  A value that is not attached to its option is the next plain
argument.  Letters without a value may share a dash, and the last of them may take one.  Two dashes
that are attached to an option stand for no value: they take back what the option was given before.

A plain argument besides the input is refused, and so is an option that does not exist, but only
after all others were obeyed: `--version` is heard before.  A letter that does not exist is refused
at once where it shares its dash with others.
-/

set_option autoImplicit false

namespace Intel8085.Shell

open Intel8085.Text

inductive Format where
  | binary
  | intelHex
  | listing
  deriving DecidableEq, Repr

def Format.name : Format → String
  | .binary => "bin"
  | .intelHex => "hex"
  | .listing => "listing"

def Format.ofName? (name : String) : Option Format :=
  [binary, intelHex, listing].find? fun format => format.name == name

/-- What the arguments ask for.  There is a profile unless it was taken back. -/
structure Options where
  input : String
  output : Option String
  format : Option Format
  profile : Option Profile
  run : Bool
  maxSteps : Option Int
  trace : Bool
  dumpMemory : Option (Int × Int)
  disassemble : Bool
  verbosity : Nat
  quiet : Bool
  logFile : Option String
  deriving DecidableEq, Repr

def Options.default : Options where
  input := ""
  output := none
  format := none
  profile := some .teaching
  run := false
  maxSteps := none
  trace := false
  dumpMemory := none
  disassemble := false
  verbosity := 0
  quiet := false
  logFile := none

def meaningOf {Meaning : Type} (value : Option String) (read : String → Option Meaning) :
    Except Early (Option Meaning) :=
  match value with
  | none => .ok none
  | some text =>
      match read text with
      | some meaning => .ok (some meaning)
      | none => .error .refused

/-- The options with one more obeyed.  The budget is zero, which bounds nothing, where it was taken
back. -/
def Options.obey (options : Options) (switch : Switch) (value : Option String) :
    Except Early Options :=
  match switch with
  | .help => .error .showHelp
  | .version => .error .showVersion
  | .output => .ok { options with output := value }
  | .format => do return { options with format := ← meaningOf value Format.ofName? }
  | .profile => do return { options with profile := ← meaningOf value Profile.ofName? }
  | .run => .ok { options with run := true }
  | .maxSteps => do
      let budget ← meaningOf value fun text => integerArgument? text.toList
      return { options with maxSteps := some (budget.getD 0) }
  | .trace => .ok { options with trace := true }
  | .dumpMemory => do
      let range ← meaningOf value fun text => (rangeArgument text).toOption
      return { options with dumpMemory := range }
  | .disassemble => .ok { options with disassemble := true }
  | .verbose => .ok { options with verbosity := options.verbosity + 1 }
  | .quiet => .ok { options with quiet := true }
  | .logFile => .ok { options with logFile := value }

def Options.obeyAll (options : Options) (switches : List (Switch × Option String)) :
    Except Early Options :=
  switches.foldlM (fun options entry => options.obey entry.1 entry.2) options

/-! ## Options that share an argument -/

/-- The options that share one argument: those that are complete, and the last of them if its value
is the next argument. -/
structure Cluster where
  complete : List (Switch × Option String)
  waiting : Option Switch
  deriving DecidableEq, Repr

def Cluster.cons (switch : Switch) (cluster : Cluster) : Cluster :=
  { cluster with complete := (switch, none) :: cluster.complete }

def Cluster.single (switch : Switch) : Cluster :=
  if switch.takesValue then { complete := [], waiting := some switch }
  else { complete := [(switch, none)], waiting := none }

def attachedValue (text : List Char) : Option String :=
  if text == ['-', '-'] then none else some (String.ofList text)

def Cluster.valued (switch : Switch) (text : List Char) : Cluster where
  complete := [(switch, attachedValue text)]
  waiting := none

/-- The options of a letter and the text attached to it.  Behind a letter that takes no value there
must be another letter. -/
def clusterOf (switch : Switch) : List Char → Except Early Cluster
  | [] => if switch.takesValue then .ok (.valued switch []) else .error .refused
  | letter :: rest =>
      if switch.takesValue then .ok (.valued switch (letter :: rest))
      else
        match Switch.ofLetter? letter, rest with
        | none, _ => .error .refused
        | some next, [] => .ok (Cluster.cons switch (.single next))
        | some next, text => Cluster.cons switch <$> clusterOf next text

def clusterOfPiece (switch : Switch) (isWord : Bool) : Option (List Char) → Except Early Cluster
  | none => .ok (.single switch)
  | some text =>
      if isWord then
        if switch.takesValue then .ok (.valued switch text) else .error .refused
      else clusterOf switch text

/-! ## The whole command line -/

/-- What was asked for so far.  A cluster waits while the value of its last option is not yet read;
something surplus is refused in the end. -/
structure Reading where
  input : Option String
  endsInInput : Bool
  options : Options
  waiting : Option (List (Switch × Option String) × Switch)
  surplus : Bool
  deriving DecidableEq, Repr

namespace Reading

def start : Reading where
  input := none
  endsInInput := false
  options := .default
  waiting := none
  surplus := false

def obeyAll (reading : Reading) (switches : List (Switch × Option String)) :
    Except Early Reading := do
  return { reading with options := ← reading.options.obeyAll switches }

def takeCluster (reading : Reading) (cluster : Cluster) : Except Early Reading :=
  match cluster.waiting with
  | some last => .ok { reading with waiting := some (cluster.complete, last) }
  | none => reading.obeyAll cluster.complete

/-- The reading with one more piece.  The separator may stand anywhere before the input and directly
behind it. -/
def take (reading : Reading) (piece : Piece) : Except Early Reading :=
  let before := { reading with endsInInput := false, waiting := none }
  match reading.waiting, piece with
  | some (complete, last), .argument value => before.obeyAll (complete ++ [(last, some value)])
  | some _, _ => .error .refused
  | none, .option switch isWord attached => do
      before.takeCluster (← clusterOfPiece switch isWord attached)
  | none, .unknownOption => .ok { before with surplus := true }
  | none, .separator =>
      let misplaced := reading.input.isSome && !reading.endsInInput
      .ok { before with surplus := reading.surplus || misplaced }
  | none, .argument text =>
      if reading.input.isSome then .ok { before with surplus := true }
      else .ok { before with input := some text, endsInInput := true }

/-- The options of a reading that has an input, nothing surplus and nothing to wait for. -/
def finish (reading : Reading) : Except Early Options :=
  match reading.input with
  | none => .error .refused
  | some input =>
      if reading.surplus || reading.waiting.isSome then .error .refused
      else .ok { reading.options with input }

end Reading

def Options.ofArguments (arguments : List String) : Except Early Options := do
  let pieces ← piecesOf arguments
  let reading ← pieces.foldlM Reading.take Reading.start
  reading.finish

end Intel8085.Shell
