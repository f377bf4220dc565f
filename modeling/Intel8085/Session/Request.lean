import Intel8085.Assembly.Program
import Intel8085.Machine.HexDump
import Intel8085.Session.Run

/-!
# Requests of a host

Everything that a host asks of a session is a request, and the session answers it with a value or
with the reason for which it refuses.  A request that is refused leaves the session as it was, apart
from what a list of requests did before the one that failed and what an instruction with a defective
pattern did before its defect showed.
-/

set_option autoImplicit false

namespace Intel8085

open Intel8085.Text

inductive HostRegister where
  | byte (register : Register)
  | stackPointer
  | programCounter
  deriving DecidableEq, Repr

/-- A part of the register file that the host reads or writes without a check. -/
inductive FilePart where
  | byte (register : Register)
  | pair (pair : Pair)
  | programCounter
  deriving DecidableEq, Repr

inductive StatusFlag where
  | sign
  | zero
  | auxiliaryCarry
  | parity
  | carry
  deriving DecidableEq, Repr

inductive Request where
  | reset
  | load (image : List UInt8) (base : Int)
  | loadNumbers (numbers : List Int) (base : Int)
  | loadFilled (value count base : Int)
  | assemble (source : List Char) (base : Int)
  | step
  | attempt
  | steps (count : Nat)
  | run (maxSteps polls : Option Int)
  | resume (maxSteps polls : Option Int)
  | readMemory (address : Int)
  | writeMemory (address value : Int)
  | readPort (port : Int)
  | writePort (port value : Int)
  | drivePort (port value : Int)
  | observePort (port : Int) (observer : String)
  | getRegister (name : HostValue)
  | setRegister (name : HostValue) (value : Int)
  | setRegisters (values : List (HostValue × Int))
  | getFlag (position : Int)
  | setFlag (position : Int) (value : Bool)
  | addBreakpoint (address : Int)
  | removeBreakpoint (address : Int)
  | clearBreakpoints
  | listBreakpoints
  | setTracing (value : Bool)
  | getTrace
  | clearTrace
  | setHalted (value : Bool)
  | getState
  | hexDump (start length : Int)
  | snapshot (start length : Int)
  | memorySize
  | clearMemory
  | getSlot (slot : Int)
  | setSlot (slot value : Int)
  | getPair (name : String)
  | setPair (name : String) (value : Int)
  | replaceStatus (mask : UInt8) (value : Int)
  | pushWord (value : Int)
  | pullWord
  | getFlags
  | getStatusFlag (flag : StatusFlag)
  | getPart (part : FilePart)
  | setPart (part : FilePart) (value : Int)
  deriving Repr

inductive Reply where
  | nothing
  | number (value : Int)
  | truth (value : Bool)
  | truths (values : List Bool)
  | text (value : String)
  | bytes (values : List UInt8)
  | addresses (values : List UInt16)
  | stop (reason : Option StopReason)
  | stops (reasons : List (Option StopReason × Registers))
  | state (registers : Registers) (halted : Bool) (steps : Nat) (ports : List UInt8)
  deriving DecidableEq, Repr

/-- A reason for which a request is refused.  A run that its caller gave too few turns is not
over. -/
inductive Refusal where
  | fault (fault : Fault)
  | defect (defect : Defect)
  | assembly (failure : Assembly.Failure)
  | notBytes
  | noSlot
  | noPair
  | unfinished
  deriving DecidableEq, Repr

def HostRegister.ofName? (name : HostValue) : Option HostRegister :=
  match name with
  | .text text =>
      match upperCase text with
      | "A" => some (.byte .a)
      | "B" => some (.byte .b)
      | "C" => some (.byte .c)
      | "D" => some (.byte .d)
      | "E" => some (.byte .e)
      | "H" => some (.byte .h)
      | "L" => some (.byte .l)
      | "FLAG" => some (.byte .status)
      | "SP" => some .stackPointer
      | "PC" => some .programCounter
      | _ => none
  | _ => none

def HostRegister.ofName (name : HostValue) : Except Fault HostRegister :=
  match HostRegister.ofName? name with
  | some register => .ok register
  | none => .error (.invalidRegister name)

def HostRegister.wordName : HostRegister → String
  | .programCounter => "PC"
  | _ => "SP"

namespace Registers

def hostRead (registers : Registers) : HostRegister → Nat
  | .byte register => (registers.read register).toNat
  | .stackPointer => registers.stackPointer.toNat
  | .programCounter => registers.programCounter.toNat

/-- The registers with one of them changed by the host.  A byte register takes the value modulo 256;
the value of a word must be a word. -/
def hostWrite (registers : Registers) (register : HostRegister) (value : Int) :
    Except Fault Registers :=
  match register with
  | .byte register => .ok (registers.write register (byteOf value))
  | .stackPointer =>
      if 0 ≤ value ∧ value ≤ 0xFFFF then .ok { registers with stackPointer := wordOf value }
      else .error (.valueOutOfRange register.wordName value)
  | .programCounter =>
      if 0 ≤ value ∧ value ≤ 0xFFFF then .ok { registers with programCounter := wordOf value }
      else .error (.valueOutOfRange register.wordName value)

def readPart (registers : Registers) : FilePart → Nat
  | .byte register => (registers.read register).toNat
  | .pair pair => (registers.pair pair).toNat
  | .programCounter => registers.programCounter.toNat

/-- The registers with a part of the file changed, to the value modulo its size. -/
def writePart (registers : Registers) (part : FilePart) (value : Int) : Registers :=
  match part with
  | .byte register => registers.write register (byteOf value)
  | .pair pair => registers.setPair pair (wordOf value)
  | .programCounter => { registers with programCounter := wordOf value }

def statusFlag (registers : Registers) (flag : StatusFlag) : Bool :=
  match flag with
  | .sign => Flags.holds Flags.signBit registers.status
  | .zero => Flags.holds Flags.zeroBit registers.status
  | .auxiliaryCarry => Flags.holds Flags.auxiliaryCarryBit registers.status
  | .parity => Flags.holds Flags.parityBit registers.status
  | .carry => Flags.holds Flags.carryBit registers.status

end Registers

def statusPosition (position : Int) : Except Fault (Fin 8) :=
  if bound : 0 ≤ position ∧ position ≤ 7 then .ok ⟨position.toNat, by omega⟩
  else .error (.flagBitOutOfBounds position)

/-- Addresses in ascending order with one more, unless it is among them. -/
def insertAddress (address : UInt16) : List UInt16 → List UInt16
  | [] => [address]
  | first :: rest =>
      if address < first then address :: first :: rest
      else if address = first then first :: rest
      else first :: insertAddress address rest

namespace Session

def setRegisters (session : Session) (registers : Registers) : Session :=
  { session with machine := { session.machine with registers } }

def setMemory (session : Session) (memory : Memory) : Session :=
  { session with machine := { session.machine with memory } }

def setPorts (session : Session) (ports : Ports) : Session :=
  { session with machine := { session.machine with ports } }

/-- The session as after power on; observers and the switch of the trace stay. -/
def reset (session : Session) : Session :=
  { machine :=
      { registers := .zeroed, memory := .blank, ports := session.machine.ports.reset }
    halted := true
    lastError := none
    steps := 0
    breakpoints := []
    tracing := session.tracing
    trace := .empty session.trace.limit }

/-- The session with the registers that the host set, one after the other, up to the first fault. -/
def setAll (session : Session) : List (HostValue × Int) → Session × Except Fault Unit
  | [] => (session, .ok ())
  | (name, value) :: rest =>
      match HostRegister.ofName name with
      | .error fault => (session, .error fault)
      | .ok register =>
          match session.machine.registers.hostWrite register value with
          | .error fault => (session, .error fault)
          | .ok registers => setAll (session.setRegisters registers) rest

/-- Up to `count` steps, ending after the first with a reason to stop; the reasons found so far are
in reverse. -/
def stepsFrom (setup : Setup) (found : List (Option StopReason × Registers)) :
    (count : Nat) → Session → Session × Except Defect (List (Option StopReason × Registers))
  | 0, session => (session, .ok found.reverse)
  | count + 1, session =>
      match session.step setup with
      | (after, .error defect) => (after, .error defect)
      | (after, .ok (some reason)) =>
          (after, .ok ((some reason, after.machine.registers) :: found).reverse)
      | (after, .ok none) => stepsFrom setup ((none, after.machine.registers) :: found) count after

/-- The session with an image loaded, or as it was if the image does not fit. -/
def loadImage (session : Session) (image : List UInt8) (base : Int) (reply : Reply) :
    Session × Except Refusal Reply :=
  match session.machine.memory.load image base with
  | .ok memory => (session.setMemory memory, .ok reply)
  | .error fault => (session, .error (.fault fault))

def traceText (session : Session) : String :=
  "\n".intercalate (session.trace.toList.map TraceLine.display)

def answer {Value : Type} (session : Session) (result : Except Fault Value) (reply : Value → Reply) :
    Session × Except Refusal Reply :=
  match result with
  | .ok value => (session, .ok (reply value))
  | .error fault => (session, .error (.fault fault))

def change {Value : Type} (session : Session) (result : Except Fault Value)
    (update : Value → Session) : Session × Except Refusal Reply :=
  match result with
  | .ok value => (update value, .ok .nothing)
  | .error fault => (session, .error (.fault fault))

def answerRun : Session × RunOutcome → Session × Except Refusal Reply
  | (after, .stopped reason) => (after, .ok (.stop (some reason)))
  | (after, .failed defect) => (after, .error (.defect defect))
  | (after, .unfinished) => (after, .error .unfinished)

/-- Does what a host asks for.  A run takes at most `patience` turns. -/
def perform (setup : Setup) (patience : Nat) (request : Request) (session : Session) :
    Session × Except Refusal Reply :=
  let registers := session.machine.registers
  let memory := session.machine.memory
  let ports := session.machine.ports
  match request with
  | .reset => (session.reset, .ok .nothing)
  | .load image base => session.loadImage image base .nothing
  | .loadNumbers numbers base =>
      match bytesOf? numbers with
      | some image => session.loadImage image base .nothing
      | none => (session, .error .notBytes)
  | .loadFilled value count base =>
      if 0 ≤ value ∧ value ≤ 0xFF then
        session.change (memory.fill (byteOf value) count.toNat base) session.setMemory
      else (session, .error .notBytes)
  | .assemble source base =>
      match Assembly.assemble setup.table setup.config.operandOrder source with
      | .ok program => session.loadImage program.code base (.bytes program.code)
      | .error failure => (session, .error (.assembly failure))
  | .step =>
      match session.step setup with
      | (after, .ok stop) => (after, .ok (.stop stop))
      | (after, .error defect) => (after, .error (.defect defect))
  | .attempt =>
      match session.attempt setup with
      | (after, .completed stop) => (after, .ok (.stop stop))
      | (after, .fault fault) => (after, .error (.fault fault))
      | (after, .defect defect) => (after, .error (.defect defect))
  | .steps count =>
      match session.stepsFrom setup [] count with
      | (after, .ok stops) => (after, .ok (.stops stops))
      | (after, .error defect) => (after, .error (.defect defect))
  | .run maxSteps polls => answerRun (session.run setup patience maxSteps polls)
  | .resume maxSteps polls => answerRun (session.resume setup patience maxSteps polls)
  | .readMemory address =>
      session.answer (memory.read? address) fun byte => .number byte.toNat
  | .writeMemory address value => session.change (memory.write? address value) session.setMemory
  | .readPort port =>
      session.answer (Ports.port port) fun port => .number (ports.read port).toNat
  | .writePort port value =>
      session.change (Ports.port port) fun port =>
        session.setPorts (ports.write port (byteOf value))
  | .drivePort port value =>
      session.change (Ports.port port) fun port =>
        session.setPorts (ports.drive port (byteOf value))
  | .observePort port observer =>
      session.change (Ports.port port) fun port => session.setPorts (ports.observe port observer)
  | .getRegister name =>
      session.answer (HostRegister.ofName name) fun register =>
        .number (registers.hostRead register)
  | .setRegister name value =>
      session.change (HostRegister.ofName name >>= fun register => registers.hostWrite register value)
        session.setRegisters
  | .setRegisters values =>
      match session.setAll values with
      | (after, .ok _) => (after, .ok .nothing)
      | (after, .error fault) => (after, .error (.fault fault))
  | .getFlag position =>
      session.answer (statusPosition position) fun position => .truth (registers.statusBit position)
  | .setFlag position value =>
      session.change (statusPosition position) fun position =>
        session.setRegisters (registers.setStatusBit position value)
  | .addBreakpoint address =>
      ({ session with breakpoints := insertAddress (wordOf address) session.breakpoints },
        .ok .nothing)
  | .removeBreakpoint address =>
      ({ session with breakpoints := session.breakpoints.erase (wordOf address) }, .ok .nothing)
  | .clearBreakpoints => ({ session with breakpoints := [] }, .ok .nothing)
  | .listBreakpoints => (session, .ok (.addresses session.breakpoints))
  | .setTracing value => ({ session with tracing := value }, .ok .nothing)
  | .getTrace => (session, .ok (.text session.traceText))
  | .clearTrace => ({ session with trace := .empty session.trace.limit }, .ok .nothing)
  | .setHalted value => ({ session with halted := value }, .ok .nothing)
  | .getState =>
      (session, .ok (.state registers session.halted session.steps ports.values.toList))
  | .hexDump start length => session.answer (HexDump.dump memory start length) Reply.text
  | .snapshot start length => session.answer (memory.snapshot start length) Reply.bytes
  | .memorySize => (session, .ok (.number Memory.size))
  | .clearMemory => (session.setMemory .blank, .ok .nothing)
  | .getSlot slot =>
      match Register.ofSlot? slot with
      | some register => (session, .ok (.number (registers.read register).toNat))
      | none => (session, .error .noSlot)
  | .setSlot slot value =>
      match Register.ofSlot? slot with
      | some register =>
          (session.setRegisters (registers.write register (byteOf value)), .ok .nothing)
      | none => (session, .error .noSlot)
  | .getPair name =>
      match Pair.ofToken? name with
      | some pair => (session, .ok (.number (registers.pair pair).toNat))
      | none => (session, .error .noPair)
  | .setPair name value =>
      match Pair.ofToken? name with
      | some pair => (session.setRegisters (registers.setPair pair (wordOf value)), .ok .nothing)
      | none => (session, .error .noPair)
  | .replaceStatus mask value =>
      (session.setRegisters (registers.replaceStatus mask (byteOf value)), .ok .nothing)
  | .pushWord value =>
      ({ session with machine := session.machine.push (wordOf value) }, .ok .nothing)
  | .pullWord =>
      ({ session with machine := session.machine.pull }, .ok (.number session.machine.top.toNat))
  | .getFlags =>
      let flags := [StatusFlag.sign, .zero, .auxiliaryCarry, .parity, .carry]
      (session, .ok (.truths (flags.map registers.statusFlag)))
  | .getStatusFlag flag => (session, .ok (.truth (registers.statusFlag flag)))
  | .getPart part => (session, .ok (.number (registers.readPart part)))
  | .setPart part value => (session.setRegisters (registers.writePart part value), .ok .nothing)

end Session

end Intel8085
