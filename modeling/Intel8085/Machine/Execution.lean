import Intel8085.InstructionSet.Form
import Intel8085.Machine.Config
import Intel8085.Machine.Memory
import Intel8085.Machine.Ports
import Intel8085.Processor.Arithmetic

/-!
# Execution of one operation

The machine is the registers, the memory and the ports.  An operation is carried out on the machine
with the immediate of its instruction and the address of the instruction behind it.  It ends by
going on at some address, by halting, by a fault, or by a defect of its pattern.
-/

set_option autoImplicit false

namespace Intel8085

structure Machine where
  registers : Registers
  memory : Memory
  ports : Ports
  deriving DecidableEq

/-- How an operation ends.  Going on takes the address of the next instruction, which a transfer
without an immediate does not have. -/
inductive Ending where
  | proceed (next : Option Int)
  | halt
  | fault (fault : Fault)
  | defect (defect : Defect)
  deriving DecidableEq, Repr

structure Effect where
  machine : Machine
  ending : Ending
  deriving DecidableEq

structure Context where
  config : Config
  mnemonic : String
  address : UInt16
  following : Nat
  immediate : Option UInt16
  deriving DecidableEq, Repr

namespace Machine

def initial : Machine where
  registers := .zeroed
  memory := .blank
  ports := .silent

def readLocation (machine : Machine) : Location → UInt8
  | .register register => machine.registers.read register
  | .memory => machine.memory.read machine.registers.hl

def writeLocation (machine : Machine) (location : Location) (byte : UInt8) : Machine :=
  match location with
  | .register register => { machine with registers := machine.registers.write register byte }
  | .memory => { machine with memory := machine.memory.write machine.registers.hl byte }

/-- The word whose low byte is at an address; the high byte follows it, at the lowest address after
the highest. -/
def readWord (machine : Machine) (address : UInt16) : UInt16 :=
  joinBytes (machine.memory.read (address + 1)) (machine.memory.read address)

def writeWord (machine : Machine) (address word : UInt16) : Machine :=
  { machine with
    memory := (machine.memory.write address (lowByte word)).write (address + 1) (highByte word) }

def setStackPointer (machine : Machine) (address : UInt16) : Machine :=
  { machine with registers := machine.registers.setPair .stackPointer address }

def push (machine : Machine) (word : UInt16) : Machine :=
  let top := machine.registers.stackPointer - 2
  (machine.setStackPointer top).writeWord top word

def top (machine : Machine) : UInt16 :=
  machine.readWord machine.registers.stackPointer

def pull (machine : Machine) : Machine :=
  machine.setStackPointer (machine.registers.stackPointer + 2)

def setPair (machine : Machine) (pair : Pair) (word : UInt16) : Machine :=
  { machine with registers := machine.registers.setPair pair word }

def setAccumulator (machine : Machine) (byte : UInt8) : Machine :=
  { machine with registers := { machine.registers with a := byte } }

/-- The machine with the status bits of a mask taken from flags. -/
def setFlags (machine : Machine) (mask : UInt8) (flags : Flags) : Machine :=
  { machine with registers := machine.registers.replaceStatus mask flags.toByte }

end Machine

def ByteOperation.result (operation : ByteOperation) (accumulator operand carry : Int) :
    Arithmetic.Result :=
  match operation with
  | .add => Arithmetic.add accumulator operand 0
  | .addWithCarry => Arithmetic.add accumulator operand carry
  | .subtract => Arithmetic.subtract accumulator operand 0
  | .subtractWithBorrow => Arithmetic.subtract accumulator operand carry
  | .conjunction => Arithmetic.conjunction accumulator operand
  | .exclusiveOr => Arithmetic.exclusiveOr accumulator operand
  | .disjunction => Arithmetic.disjunction accumulator operand
  | .compare => Arithmetic.compare accumulator operand

/-- A byte operation leaves its result in the accumulator, but a comparison leaves only flags. -/
def ByteOperation.keepsResult : ByteOperation → Bool
  | .compare => false
  | _ => true

def Rotation.result (rotation : Rotation) (accumulator carry : Int) : Arithmetic.Result :=
  match rotation with
  | .left => Arithmetic.rotateLeft accumulator
  | .right => Arithmetic.rotateRight accumulator
  | .leftThroughCarry => Arithmetic.rotateLeftThroughCarry accumulator carry
  | .rightThroughCarry => Arithmetic.rotateRightThroughCarry accumulator carry

namespace Context

def proceed (context : Context) (machine : Machine) : Effect where
  machine := machine
  ending := .proceed (some context.following)

def transfer (context : Context) (machine : Machine) : Effect where
  machine := machine
  ending := .proceed (context.immediate.map fun target => (target.toNat : Int))

def withImmediate (context : Context) (machine : Machine) (operation : UInt16 → Machine) : Effect :=
  match context.immediate with
  | some value => context.proceed (operation value)
  | none => { machine, ending := .defect .missingImmediate }

def ifModelled (context : Context) (machine : Machine) (effect : Effect) : Effect :=
  if context.config.modelsIoAndBcd then effect
  else { machine, ending := .fault (.unsupportedInstruction context.mnemonic (some context.address)) }

def withPort (context : Context) (machine : Machine) (operation : UInt8 → Machine) : Effect :=
  context.ifModelled machine <|
    match context.immediate with
    | none => { machine, ending := .defect .missingImmediate }
    | some value =>
        match Ports.port value.toNat with
        | .ok port => context.proceed (operation port)
        | .error fault => { machine, ending := .fault fault }

/-- A transfer that may have a condition goes its way if the condition holds. -/
def onCondition (context : Context) (machine : Machine) (condition : Option Condition)
    (effect : Effect) : Effect :=
  if condition.all fun condition => condition.holdsIn machine.registers.status then effect
  else context.proceed machine

def accumulate (context : Context) (machine : Machine) (operation : ByteOperation) (operand : Int) :
    Effect :=
  let registers := machine.registers
  let result := operation.result registers.a.toNat operand registers.carry.toInt
  let kept := if operation.keepsResult then machine.setAccumulator result.value else machine
  context.proceed (kept.setFlags Flags.allBits result.flags)

/-- A count of one up or down; the carry stays. -/
def count (context : Context) (machine : Machine) (location : Location)
    (operation : Int → Arithmetic.Result) : Effect :=
  let result := operation (machine.readLocation location).toNat
  context.proceed
    ((machine.writeLocation location result.value).setFlags Flags.allBitsButCarry result.flags)

end Context

def Operation.execute (operation : Operation) (context : Context) (machine : Machine) : Effect :=
  let registers := machine.registers
  match operation with
  | .move destination source =>
      context.proceed (machine.writeLocation destination (machine.readLocation source))
  | .moveImmediate destination =>
      context.withImmediate machine fun value =>
        machine.writeLocation destination (lowByte value)
  | .loadPair pair => context.withImmediate machine fun value => machine.setPair pair value
  | .loadAccumulator =>
      context.withImmediate machine fun address =>
        machine.setAccumulator (machine.memory.read address)
  | .storeAccumulator =>
      context.withImmediate machine fun address =>
        { machine with memory := machine.memory.write address registers.a }
  | .loadHL =>
      context.withImmediate machine fun address => machine.setPair .hl (machine.readWord address)
  | .storeHL => context.withImmediate machine fun address => machine.writeWord address registers.hl
  | .loadIndirect pointer =>
      context.proceed (machine.setAccumulator (machine.memory.read (registers.pair pointer)))
  | .storeIndirect pointer =>
      context.proceed
        { machine with memory := machine.memory.write (registers.pair pointer) registers.a }
  | .exchangePairs =>
      context.proceed
        ((machine.setPair .hl (registers.pair .de)).setPair .de (registers.pair .hl))
  | .stackPointerFromHL => context.proceed (machine.setStackPointer registers.hl)
  | .exchangeStackTop =>
      context.proceed
        ((machine.writeWord registers.stackPointer registers.hl).setPair .hl machine.top)
  | .push pair => context.proceed (machine.push (registers.pair pair))
  | .pop pair => context.proceed (machine.pull.setPair pair machine.top)
  | .accumulate operation .immediate =>
      match context.immediate with
      | some value => context.accumulate machine operation value.toNat
      | none => { machine, ending := .defect .missingImmediate }
  | .accumulate operation (.location location) =>
      context.accumulate machine operation (machine.readLocation location).toNat
  | .increment location => context.count machine location Arithmetic.increment
  | .decrement location => context.count machine location Arithmetic.decrement
  | .incrementPair pair => context.proceed (machine.setPair pair (registers.pair pair + 1))
  | .decrementPair pair => context.proceed (machine.setPair pair (registers.pair pair - 1))
  | .addPair pair =>
      let sum := Arithmetic.addWords registers.hl.toNat (registers.pair pair).toNat
      context.proceed
        ((machine.setPair .hl sum.value).setFlags Flags.carryBit (.onlyCarry sum.carry))
  | .decimalAdjust =>
      let result := Arithmetic.decimalAdjust registers.a.toNat registers.status.toNat
      context.ifModelled machine <|
        context.proceed ((machine.setAccumulator result.value).setFlags Flags.allBits result.flags)
  | .rotate rotation =>
      let result := rotation.result registers.a.toNat registers.carry.toInt
      context.proceed ((machine.setAccumulator result.value).setFlags Flags.carryBit result.flags)
  | .complement => context.proceed (machine.setAccumulator (~~~registers.a))
  | .complementCarry =>
      context.proceed
        { machine with registers := { registers with status := registers.status ^^^ Flags.carryBit } }
  | .setCarry =>
      context.proceed
        { machine with registers := { registers with status := registers.status ||| Flags.carryBit } }
  | .jump condition => context.onCondition machine condition (context.transfer machine)
  | .call condition =>
      -- behind the last address of memory the return address is zero
      context.onCondition machine condition
        (context.transfer (machine.push (UInt16.ofNat context.following)))
  | .ret condition =>
      context.onCondition machine condition
        { machine := machine.pull, ending := .proceed (some machine.top.toNat) }
  | .restart number =>
      { machine := machine.push (UInt16.ofNat context.following)
        ending := .proceed (some (number * 8)) }
  | .jumpToHL => { machine, ending := .proceed (some registers.hl.toNat) }
  | .input =>
      context.withPort machine fun port => machine.setAccumulator (machine.ports.read port)
  | .output =>
      context.withPort machine fun port =>
        { machine with ports := machine.ports.write port registers.a }
  | .enableInterrupts =>
      context.proceed { machine with registers := { registers with interruptsEnabled := true } }
  | .disableInterrupts =>
      context.proceed { machine with registers := { registers with interruptsEnabled := false } }
  | .interruptMask =>
      { machine
        ending := .fault (.unsupportedInstruction context.mnemonic (some context.address)) }
  | .noOperation => context.proceed machine
  | .halt => { machine, ending := .halt }
  | .defective defect => { machine, ending := .defect defect }
  | .pullThenFail defect => { machine := machine.pull, ending := .defect defect }
  | .pushThenFail defect =>
      { machine := machine.push (UInt16.ofNat context.following), ending := .defect defect }

end Intel8085
