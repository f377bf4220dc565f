import Intel8085.Processor.Registers
import Intel8085.Text.Integer

/-!
# Operations

What the processor does for an instruction, once the tokens of its pattern are understood.  A
pattern of the machine's own instruction set names one of the ordinary operations.  The tokens of
an injected pattern may name nothing that the processor can do: such an operation carries its
`Defect`, after the part of its work that needs no sound token.
-/

set_option autoImplicit false

namespace Intel8085

open Intel8085.Text

inductive Defect where
  | unknownMnemonic
  | missingToken
  | unknownToken
  | missingImmediate
  | badRestartNumber
  deriving DecidableEq, Repr

/-- A place that holds a byte operand: a register, or the memory cell that HL addresses. -/
inductive Location where
  | register (register : Register)
  | memory
  deriving DecidableEq, Repr

inductive Operand where
  | immediate
  | location (location : Location)
  deriving DecidableEq, Repr

inductive ByteOperation where
  | add
  | addWithCarry
  | subtract
  | subtractWithBorrow
  | conjunction
  | exclusiveOr
  | disjunction
  | compare
  deriving DecidableEq, Repr

inductive Rotation where
  | left
  | right
  | leftThroughCarry
  | rightThroughCarry
  deriving DecidableEq, Repr

inductive Condition where
  | notZero
  | zero
  | noCarry
  | carry
  | parityOdd
  | parityEven
  | plus
  | minus
  deriving DecidableEq, Repr

namespace Condition

/-- Every condition, in the order of the condition codes of the opcodes. -/
def all : List Condition :=
  [.notZero, .zero, .noCarry, .carry, .parityOdd, .parityEven, .plus, .minus]

/-- The letters of a condition behind the letter of a transfer. -/
def suffix : Condition → String
  | .notZero => "NZ"
  | .zero => "Z"
  | .noCarry => "NC"
  | .carry => "C"
  | .parityOdd => "PO"
  | .parityEven => "PE"
  | .plus => "P"
  | .minus => "M"

def ofSuffix? (letters : List Char) : Option Condition :=
  all.find? fun condition => condition.suffix == String.ofList letters

def bit : Condition → UInt8
  | .notZero => Flags.zeroBit
  | .zero => Flags.zeroBit
  | .noCarry => Flags.carryBit
  | .carry => Flags.carryBit
  | .parityOdd => Flags.parityBit
  | .parityEven => Flags.parityBit
  | .plus => Flags.signBit
  | .minus => Flags.signBit

def wanted : Condition → Bool
  | .notZero => false
  | .zero => true
  | .noCarry => false
  | .carry => true
  | .parityOdd => false
  | .parityEven => true
  | .plus => false
  | .minus => true

def holdsIn (condition : Condition) (status : UInt8) : Bool :=
  Flags.holds condition.bit status == condition.wanted

end Condition

inductive Operation where
  | move (destination source : Location)
  | moveImmediate (destination : Location)
  | loadPair (pair : Pair)
  | loadAccumulator
  | storeAccumulator
  | loadHL
  | storeHL
  | loadIndirect (pointer : Pair)
  | storeIndirect (pointer : Pair)
  | exchangePairs
  | stackPointerFromHL
  | exchangeStackTop
  | push (pair : Pair)
  | pop (pair : Pair)
  | accumulate (operation : ByteOperation) (operand : Operand)
  | increment (location : Location)
  | decrement (location : Location)
  | incrementPair (pair : Pair)
  | decrementPair (pair : Pair)
  | addPair (pair : Pair)
  | decimalAdjust
  | rotate (rotation : Rotation)
  | complement
  | complementCarry
  | setCarry
  | jump (condition : Option Condition)
  | call (condition : Option Condition)
  | ret (condition : Option Condition)
  | restart (number : Int)
  | jumpToHL
  | input
  | output
  | enableInterrupts
  | disableInterrupts
  | interruptMask
  | noOperation
  | halt
  /-- Stops before it has changed anything. -/
  | defective (defect : Defect)
  /-- Takes a word off the stack and stops. -/
  | pullThenFail (defect : Defect)
  /-- Puts the return address on the stack and stops. -/
  | pushThenFail (defect : Defect)
  deriving DecidableEq, Repr

def Register.ofToken? : String → Option Register
  | "B" => some .b
  | "C" => some .c
  | "D" => some .d
  | "E" => some .e
  | "H" => some .h
  | "L" => some .l
  | "FLAG" => some .status
  | "A" => some .a
  | _ => none

def Location.ofToken : String → Except Defect Location
  | "M" => .ok .memory
  | token =>
      match Register.ofToken? token with
      | some named => .ok (.register named)
      | none => .error .unknownToken

def Pair.ofToken? : String → Option Pair
  | "B" => some .bc
  | "D" => some .de
  | "H" => some .hl
  | "SP" => some .stackPointer
  | "PSW" => some .statusWord
  | _ => none

def Pair.ofToken (token : String) : Except Defect Pair :=
  match Pair.ofToken? token with
  | some pair => .ok pair
  | none => .error .unknownToken

namespace Operation

def token (operands : List String) (position : Nat) : Except Defect String :=
  match operands[position]? with
  | some token => .ok token
  | none => .error .missingToken

def firstLocation (operands : List String) : Except Defect Location := do
  Location.ofToken (← token operands 0)

def firstPair (operands : List String) : Except Defect Pair := do
  Pair.ofToken (← token operands 0)

/-- The operation, or the one that stops at once for the defect of its pattern. -/
def orDefective : Except Defect Operation → Operation
  | .ok operation => operation
  | .error defect => .defective defect

/-- A move.  Both operands must be there before either is looked up. -/
def ofMove (operands : List String) : Except Defect Operation := do
  let destinationToken ← token operands 0
  let sourceToken ← token operands 1
  let source ← Location.ofToken sourceToken
  let destination ← Location.ofToken destinationToken
  return .move destination source

/-- A byte operation takes the immediate where the pattern has one, and otherwise its first
operand. -/
def ofByteOperation (operation : ByteOperation) (operands : List String) (hasImmediate : Bool) :
    Except Defect Operation :=
  if hasImmediate then return .accumulate operation .immediate
  else return .accumulate operation (.location (← firstLocation operands))

/-- A word is off the stack before it is known where it goes. -/
def ofPop (operands : List String) : Operation :=
  match token operands 0 with
  | .error defect => .defective defect
  | .ok name =>
      match Pair.ofToken name with
      | .ok pair => .pop pair
      | .error defect => .pullThenFail defect

/-- The return address is on the stack before the number of the restart is read. -/
def ofRestart (operands : List String) : Operation :=
  match token operands 0 with
  | .error defect => .pushThenFail defect
  | .ok name =>
      match integer? .ten name.toList with
      | some number => .restart number
      | none => .pushThenFail .badRestartNumber

def onCondition (transfer : Option Condition → Operation) (letters : List Char) : Operation :=
  match Condition.ofSuffix? letters with
  | some condition => transfer (some condition)
  | none => .defective .unknownMnemonic

/-- A transfer on a condition: a letter for the transfer and the letters of the condition. -/
def ofConditional (mnemonic : String) : Operation :=
  match mnemonic.toList with
  | 'J' :: letters => onCondition .jump letters
  | 'C' :: letters => onCondition .call letters
  | 'R' :: letters => onCondition .ret letters
  | _ => .defective .unknownMnemonic

def ofTokens (mnemonic : String) (operands : List String) (hasImmediate : Bool) : Operation :=
  match mnemonic with
  | "MOV" => orDefective (ofMove operands)
  | "MVI" => orDefective (.moveImmediate <$> firstLocation operands)
  | "LXI" => orDefective (.loadPair <$> firstPair operands)
  | "LDA" => .loadAccumulator
  | "STA" => .storeAccumulator
  | "LHLD" => .loadHL
  | "SHLD" => .storeHL
  | "LDAX" => orDefective (.loadIndirect <$> firstPair operands)
  | "STAX" => orDefective (.storeIndirect <$> firstPair operands)
  | "XCHG" => .exchangePairs
  | "SPHL" => .stackPointerFromHL
  | "XTHL" => .exchangeStackTop
  | "PUSH" => orDefective (.push <$> firstPair operands)
  | "POP" => ofPop operands
  | "ADD" => orDefective (ofByteOperation .add operands hasImmediate)
  | "ADI" => orDefective (ofByteOperation .add operands hasImmediate)
  | "ADC" => orDefective (ofByteOperation .addWithCarry operands hasImmediate)
  | "ACI" => orDefective (ofByteOperation .addWithCarry operands hasImmediate)
  | "SUB" => orDefective (ofByteOperation .subtract operands hasImmediate)
  | "SUI" => orDefective (ofByteOperation .subtract operands hasImmediate)
  | "SBB" => orDefective (ofByteOperation .subtractWithBorrow operands hasImmediate)
  | "SBI" => orDefective (ofByteOperation .subtractWithBorrow operands hasImmediate)
  | "ANA" => orDefective (ofByteOperation .conjunction operands hasImmediate)
  | "ANI" => orDefective (ofByteOperation .conjunction operands hasImmediate)
  | "XRA" => orDefective (ofByteOperation .exclusiveOr operands hasImmediate)
  | "XRI" => orDefective (ofByteOperation .exclusiveOr operands hasImmediate)
  | "ORA" => orDefective (ofByteOperation .disjunction operands hasImmediate)
  | "ORI" => orDefective (ofByteOperation .disjunction operands hasImmediate)
  | "CMP" => orDefective (ofByteOperation .compare operands hasImmediate)
  | "CPI" => orDefective (ofByteOperation .compare operands hasImmediate)
  | "INR" => orDefective (.increment <$> firstLocation operands)
  | "DCR" => orDefective (.decrement <$> firstLocation operands)
  | "INX" => orDefective (.incrementPair <$> firstPair operands)
  | "DCX" => orDefective (.decrementPair <$> firstPair operands)
  | "DAD" => orDefective (.addPair <$> firstPair operands)
  | "DAA" => .decimalAdjust
  | "RLC" => .rotate .left
  | "RRC" => .rotate .right
  | "RAL" => .rotate .leftThroughCarry
  | "RAR" => .rotate .rightThroughCarry
  | "CMA" => .complement
  | "CMC" => .complementCarry
  | "STC" => .setCarry
  | "JMP" => .jump none
  | "CALL" => .call none
  | "RET" => .ret none
  | "RST" => ofRestart operands
  | "PCHL" => .jumpToHL
  | "IN" => .input
  | "OUT" => .output
  | "EI" => .enableInterrupts
  | "DI" => .disableInterrupts
  | "RIM" => .interruptMask
  | "SIM" => .interruptMask
  | "NOP" => .noOperation
  | "HLT" => .halt
  | other => ofConditional other

end Operation

end Intel8085
