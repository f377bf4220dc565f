import Intel8085.InstructionSet.Table
import Intel8085.Machine.Execution
import Intel8085.Session.Trace

/-!
# Sessions and their steps

A session is a machine with what a front end keeps beside it: whether it is halted, the last fault,
the number of steps, the breakpoints and the trace.  The opcode table and the configuration of a
session never change; they are its setup.

`attempt` carries out the instruction at the program counter and reports a fault to its caller;
`step` turns a fault into a reason to stop and keeps it as the last error.  A defect of an injected
pattern is reported by both.
-/

set_option autoImplicit false

namespace Intel8085

structure Setup where
  table : OpcodeTable
  config : Config

inductive StopReason where
  | halt
  | breakpoint
  | budget
  | cancelled
  | illegal
  | unsupported
  | fault
  | endOfMemory
  deriving DecidableEq, Repr

def StopReason.name : StopReason → String
  | .halt => "HALT"
  | .breakpoint => "BREAK"
  | .budget => "BUDGET"
  | .cancelled => "CANCELLED"
  | .illegal => "ILLEGAL"
  | .unsupported => "UNSUPPORTED"
  | .fault => "FAULT"
  | .endOfMemory => "END_OF_MEMORY"

def Fault.stopReason : Fault → StopReason
  | .unknownOpcode _ _ => .illegal
  | .unsupportedInstruction _ _ => .unsupported
  | _ => .fault

structure Session where
  machine : Machine
  halted : Bool
  lastError : Option Fault
  steps : Nat
  breakpoints : List UInt16
  tracing : Bool
  trace : Recent TraceLine

inductive Outcome where
  | completed (stop : Option StopReason)
  | fault (fault : Fault)
  | defect (defect : Defect)
  deriving DecidableEq, Repr

/-- An instruction with the value of its immediate bytes, if they are one or two. -/
structure Fetched where
  form : Form
  immediate : Option UInt16

namespace Session

def initial (config : Config) : Session where
  machine := .initial
  halted := true
  lastError := none
  steps := 0
  breakpoints := []
  tracing := config.trace
  trace := .empty config.traceLimit

def greatestTraceLimit : Nat := 2 ^ (63 : Nat) - 1

def ofConfig? (config : Config) : Option Session :=
  if config.traceLimit ≤ greatestTraceLimit then some (initial config) else none

def programCounter (session : Session) : UInt16 :=
  session.machine.registers.programCounter

def goTo (session : Session) (address : UInt16) : Session :=
  { session with
    machine := { session.machine with
      registers := { session.machine.registers with programCounter := address } } }

end Session

def Memory.immediate (memory : Memory) (order : ByteOrder) (address : UInt16) (width : Nat) :
    Except Fault (Option UInt16) :=
  match width with
  | 1 => do
      let byte ← memory.read? (address.toNat + 1)
      return some (joinBytes 0 byte)
  | 2 => do
      let first ← memory.read? (address.toNat + 1)
      let second ← memory.read? (address.toNat + 2)
      return some (order.joinWord [first, second])
  | _ => .ok none

def Memory.fetch (memory : Memory) (setup : Setup) (address : UInt16) : Except Fault Fetched :=
  let opcode := memory.read address
  match setup.table.form? opcode with
  | none => .error (.unknownOpcode opcode.toNat (some address))
  | some form => do
      let immediate ← memory.immediate setup.config.operandOrder address form.width
      return { form, immediate }

namespace Session

def traceLine (session : Session) (fetched : Fetched) : TraceLine where
  before := session.machine.registers
  mnemonic := fetched.form.mnemonic
  operands := fetched.form.operands
  value := match fetched.immediate with
    | some value => value.toNat
    | none => 0

/-- The session with one more step counted, and its line in the trace if the trace is on. -/
def record (session : Session) (line : TraceLine) : Session :=
  { session with
    steps := session.steps + 1
    trace := if session.tracing then session.trace.push line else session.trace }

def context (setup : Setup) (session : Session) (fetched : Fetched) : Context where
  config := setup.config
  mnemonic := fetched.form.mnemonic
  address := session.programCounter
  following := session.programCounter.toNat + fetched.form.length
  immediate := fetched.immediate

/-- The session after an operation, and how the attempt at its instruction comes out.  The line of
the instruction goes into the trace unless the operation failed. -/
def finish (session : Session) (line : TraceLine) (effect : Effect) : Session × Outcome :=
  let after := { session with machine := effect.machine }
  match effect.ending with
  | .fault fault => (after, .fault fault)
  | .defect defect => (after, .defect defect)
  | .halt => ({ after.record line with halted := true }, .completed (some .halt))
  | .proceed none => (after.record line, .defect .missingImmediate)
  | .proceed (some next) =>
      if 0xFFFF < next then
        ({ after.record line with halted := true }, .completed (some .endOfMemory))
      else ((after.record line).goTo (wordOf next), .completed none)

/-- Carries out a fetched instruction.  The trace has no line for more than two immediate bytes. -/
def carryOut (setup : Setup) (session : Session) (fetched : Fetched) : Session × Outcome :=
  if session.tracing && 2 < fetched.form.width then (session, .defect .missingImmediate)
  else
    session.finish (session.traceLine fetched)
      (fetched.form.operation.execute (session.context setup fetched) session.machine)

def attempt (setup : Setup) (session : Session) : Session × Outcome :=
  match session.machine.memory.fetch setup session.programCounter with
  | .error fault => (session, .fault fault)
  | .ok fetched => session.carryOut setup fetched

def fail (session : Session) (fault : Fault) : Session :=
  { session with lastError := some fault, halted := true }

/-- Carries out the instruction at the program counter, where a fault is a reason to stop. -/
def step (setup : Setup) (session : Session) : Session × Except Defect (Option StopReason) :=
  match session.attempt setup with
  | (after, .completed stop) => (after, .ok stop)
  | (after, .fault fault) => (after.fail fault, .ok (some fault.stopReason))
  | (after, .defect defect) => (after, .error defect)

end Session

end Intel8085
