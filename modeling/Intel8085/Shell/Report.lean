import Intel8085.Assembly.IntelHex
import Intel8085.Assembly.Listing
import Intel8085.Disassembly.Line
import Intel8085.InstructionSet.Standard
import Intel8085.Session.Request
import Intel8085.Shell.FileTree
import Intel8085.Shell.Log

/-!
# Reports

What the program does with its input is a report: effects in the order in which they take place, and
an ending.  A report follows from the options and the content of the input alone.  An image is
disassembled; a source text is assembled, delivered in the form that is asked for, and run if that is
asked for too.
-/

set_option autoImplicit false

namespace Intel8085.Shell

open Intel8085.Text

inductive Content where
  | text (value : String)
  | bytes (values : List UInt8)
  deriving DecidableEq, Repr

def Content.toBytes : Content → List UInt8
  | .text value => value.toUTF8.toList
  | .bytes values => values

inductive Effect where
  | tell (record : Record)
  | print (content : Content)
  | complain (line : String)
  | store (name : String) (content : Content)
  deriving DecidableEq, Repr

/-- How the program ends: with a status, or for a reason that it has no words for.  A run that its
caller gave too few turns is not over. -/
inductive Ending where
  | status (code : Nat)
  | noProfile
  | brokenFile (error : FileError)
  | brokenText
  | brokenSource (failure : Assembly.Failure)
  | brokenImage (failure : Disassembly.Failure)
  | brokenRun (defect : Defect)
  | unfinished
  deriving DecidableEq, Repr

def Ending.description : Ending → String
  | .status code => "status " ++ toString code
  | .noProfile => "no profile is chosen"
  | .brokenFile _ => "file cannot be used"
  | .brokenText => "input is not UTF-8"
  | .brokenSource _ => "input cannot be assembled"
  | .brokenImage _ => "input cannot be disassembled"
  | .brokenRun _ => "program cannot be run"
  | .unfinished => "run is not over"

structure Report where
  effects : List Effect
  ending : Ending
  deriving DecidableEq, Repr

namespace Report

def silent (ending : Ending) : Report where
  effects := []
  ending := ending

def after (report : Report) (effects : List Effect) : Report :=
  { report with effects := effects ++ report.effects }

def complaint (line : String) : Report where
  effects := [.complain line]
  ending := .status 1

end Report

def printLine (line : String) : Effect :=
  .print (.text (line ++ "\n"))

/-- The profile to work with; nothing is done with an input unless one is chosen. -/
def Options.chosenProfile (options : Options) : Profile :=
  options.profile.getD .teaching

def Options.config (options : Options) : Config :=
  { Config.ofProfile options.chosenProfile with trace := options.trace }

/-- The name by which the input is opened: an image is opened by its normal name. -/
def Options.inputName (options : Options) : String :=
  if options.disassemble then normalName options.input else options.input

/-! ## Disassembling -/

def disassemblyReport (options : Options) (image : List UInt8) : Report :=
  match Disassembly.sweep .standard options.config.operandOrder 0 0 image with
  | .ok lines =>
      { effects := lines.map fun line => printLine (line.display 10), ending := .status 0 }
  | .error failure => .silent (.brokenImage failure)

/-! ## Delivering a program -/

/-- The form that an extension stands for; any other stands for bytes. -/
def Format.ofExtension (extension : String) : Format :=
  match extension with
  | ".hex" => .intelHex
  | ".ihx" => .intelHex
  | ".lst" => .listing
  | _ => .binary

def Options.outputName (options : Options) : Option String :=
  options.output.filter fun name => !name.isEmpty

def Options.deliveryFormat (options : Options) : Format :=
  match options.format, options.outputName with
  | some format, _ => format
  | none, some name => .ofExtension (extensionOf name)
  | none, none => .listing

def deliverable (program : Assembly.Program) : Format → Content
  | .binary => .bytes program.code
  | .intelHex =>
      match Assembly.IntelHex.write program.code 0 16 with
      | .ok text => .text text
      | .error _ => .text ""
  | .listing => .text (program.listingText ++ "\n")

/-- The effects by which a program is delivered.  A program that is run is not printed. -/
def deliveryEffects (options : Options) (program : Assembly.Program) : List Effect :=
  let format := options.deliveryFormat
  match options.outputName with
  | some name =>
      [.store (normalName name) (deliverable program format),
        .tell { origin := .shell, level := .info,
                text := "Output:  " ++ name ++ " (" ++ format.name ++ ")" }]
  | none => if options.run then [] else [.print (deliverable program format)]

/-! ## Running a program -/

def machineRecord (level : Level) (text : String) : Effect :=
  .tell { origin := .machine, level, text }

def dollarWord (word : UInt16) : String :=
  "$" ++ hexText 4 word.toNat

/-- The record of the step that a run stopped in, if it stopped in a step. -/
def stopRecord (session : Session) (reason : StopReason) : List Effect :=
  let address := dollarWord session.programCounter
  match reason, session.lastError with
  | .halt, _ =>
      [machineRecord .debug ("HLT at " ++ address ++ " after " ++ toString session.steps ++ " steps")]
  | .endOfMemory, _ => [machineRecord .debug ("Execution ran past $FFFF at " ++ address)]
  | reason, some fault => [machineRecord .warning (reason.name ++ ": " ++ fault.message)]
  | _, none => []

/-- The number of steps that a run took, with the one that failed. -/
def attemptedSteps (session : Session) : Nat :=
  if session.lastError.isSome then session.steps + 1 else session.steps

/-- The records of a run that is over.  They have a line for each instruction, if anyone hears. -/
def runRecords (options : Options) (session : Session) (reason : StopReason) : List Effect :=
  let lines := if options.hears .debug then session.trace.toList else []
  lines.map (fun line => machineRecord .debug line.display) ++ stopRecord session reason ++
    [machineRecord .debug ("Stopped: " ++ reason.name ++ " after " ++
      toString (attemptedSteps session) ++ " steps at " ++ dollarWord session.programCounter)]

def runPrints (options : Options) (session : Session) (reason : StopReason) : List Effect :=
  let lines := Recent.lastItems options.config.traceLimit session.trace.toList
  let trace :=
    if options.trace then [printLine ("\n".intercalate (lines.map TraceLine.display))] else []
  trace ++
    [printLine session.machine.registers.display,
      printLine ("Stopped: " ++ reason.name ++ " after " ++ toString session.steps ++ " steps")]

def stoppedReport (options : Options) (session : Session) (reason : StopReason) : Report :=
  let complaints := session.lastError.toList.map fun fault =>
    Effect.complain ("Runtime error: " ++ fault.message)
  let status := Ending.status (if session.lastError.isSome then 1 else 0)
  let ending : Report :=
    match options.dumpMemory with
    | none => .silent status
    | some (start, length) =>
        match HexDump.dump session.machine.memory start length with
        | .ok dump => { effects := [printLine dump], ending := status }
        | .error fault => .complaint ("Emulator error: " ++ fault.message)
  ending.after (runRecords options session reason ++ runPrints options session reason ++ complaints)

/-- A session with an image at address zero.  Its trace keeps every line if its records are heard. -/
def sessionFor (options : Options) (image : List UInt8) : Session :=
  let config := options.config
  let session := Session.initial config
  let limit := if options.hears .debug then 0 else config.traceLimit
  { session with
    machine := { session.machine with memory := session.machine.memory.store 0 image }
    trace := .empty limit }

def runReport (options : Options) (patience : Nat) (image : List UInt8) : Report :=
  let setup : Setup := { table := .standard, config := options.config }
  let report : Report :=
    match (sessionFor options image).run setup patience options.maxSteps none with
    | (session, .stopped reason) => stoppedReport options session reason
    | (_, .failed defect) => .silent (.brokenRun defect)
    | (_, .unfinished) => .silent .unfinished
  report.after
    [machineRecord .debug ("Loaded " ++ toString image.length ++ " bytes at " ++ dollarWord 0)]

/-! ## Assembling -/

def shellRecord (text : String) : Effect :=
  .tell { origin := .shell, level := .info, text }

def programSize (program : Assembly.Program) : String :=
  "Assembled " ++ toString program.code.length ++ " bytes, " ++
    toString program.labels.length ++ " labels"

def programReport (options : Options) (patience : Nat) (program : Assembly.Program) : Report :=
  let size := programSize program
  let references := toString program.referenceCount
  let records : List Effect :=
    [.tell { origin := .assembler, level := .debug, text := size ++ ", " ++ references ++ " fixups" },
      shellRecord size]
  let rest : Report :=
    if options.run then runReport options patience program.code else .silent (.status 0)
  rest.after (records ++ deliveryEffects options program)

def sourceReport (options : Options) (patience : Nat) (source : String) : Report :=
  let report :=
    match Assembly.assemble .standard options.config.operandOrder source.toList with
    | .ok program => programReport options patience program
    | .error (.refused error) => .complaint ("Assembler error: " ++ error.message)
    | .error failure => .silent (.brokenSource failure)
  let profile := options.chosenProfile
  report.after
    [shellRecord ("Input:   " ++ options.input),
      shellRecord ("Profile: " ++ profile.name ++ " - " ++ profile.description)]

/-! ## The input -/

def unreadReport (options : Options) (error : FileError) : Report :=
  match options.disassemble, error, error.message? options.inputName with
  | false, .notFound, _ => .complaint ("Error: File not found: " ++ options.input)
  | _, _, some message => .complaint ("Error reading " ++ options.input ++ ": " ++ message)
  | _, _, none => .silent (.brokenFile error)

def contentReport (options : Options) (patience : Nat) (bytes : List UInt8) : Report :=
  if options.disassemble then disassemblyReport options bytes
  else
    match String.fromUTF8? bytes.toByteArray with
    | some source => sourceReport options patience source
    | none => .silent .brokenText

/-- The report on an input.  A missing profile is noticed before the input is. -/
def inputReport (options : Options) (patience : Nat) (input : Except FileError (List UInt8)) :
    Report :=
  if options.profile.isNone then .silent .noProfile
  else
    match input with
    | .error error => unreadReport options error
    | .ok bytes => contentReport options patience bytes

end Intel8085.Shell
