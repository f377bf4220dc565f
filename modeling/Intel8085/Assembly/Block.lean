import Intel8085.Assembly.Error
import Intel8085.Assembly.Vocabulary
import Intel8085.Machine.Config
import Intel8085.Source.Statement

/-!
# Blocks

A statement with an instruction or data becomes a block of bytes.  Where an operand names a label
the block holds zeros and a reference, which says where the address of the label belongs.  What a
block holds depends on its statement, on the names of all labels, and on nothing that other
statements emit; only whether the block still fits depends on the bytes before it.
-/

set_option autoImplicit false

namespace Intel8085.Assembly

open Intel8085.Text Intel8085.Source

def longestProgram : Nat := 65536

/-- The labels of a source text with the lines that define them. -/
abbrev Declarations := List (String × Nat)

/-- The address of a label, to be put into `width` bytes from a position of a block on. -/
structure Reference where
  position : Nat
  name : String
  width : Nat
  deriving DecidableEq, Repr

structure Block where
  line : Nat
  label : String
  text : String
  size : Nat
  cycles : Int
  states : Int
  bytes : List UInt8
  references : List Reference
  deriving DecidableEq, Repr

inductive Value where
  | number (value : Nat)
  | address (name : String)
  deriving DecidableEq, Repr

def refuse {Result : Type} (line : Nat) (cause : Cause) : Except Failure Result :=
  .error (.refused { line, cause })

/-- The failure of a statement for a number that is named in the cause; a number of too many decimal
digits cannot be named. -/
def refuseNumber {Result : Type} (line value : Nat) (cause : Cause) : Except Failure Result :=
  if value < 10 ^ longestDecimal then refuse line cause else .error .numberTooLong

def valueOf (declared : Declarations) (line : Nat) (operand : String) : Except Failure Value :=
  if (declared.lookup operand).isSome then .ok (.address operand)
  else
    match readLiteral operand.toList with
    | .number value => .ok (.number value)
    | .tooLong => .error .numberTooLong
    | .malformed =>
        if isIdentifier operand && !isRegisterWord operand then
          refuse line (.undefinedLabel operand)
        else refuse line (.invalidNumber operand)

def isMalformed (operand : String) : Bool :=
  operand.toList.isEmpty || operand.toList.any isBlank

def checkOperands (line : Nat) (operands : List String) : Except Failure Unit :=
  if operands.any isMalformed then refuse line (.malformedOperands operands) else .ok ()

/-- The tokens that operands are looked up by, in reverse, and the value of the last operand that is
no literal token. -/
structure Classified where
  tokens : List String
  value : Option Value
  deriving DecidableEq, Repr

/-- One more operand: a literal token stands for itself, and any other operand for an immediate. -/
def classify (declared : Declarations) (line : Nat) (literals : List String)
    (classified : Classified) (operand : String) : Except Failure Classified :=
  if isRegisterWord operand || literals.contains operand then
    .ok { classified with tokens := operand :: classified.tokens }
  else do
    let value ← valueOf declared line operand
    return { tokens := Token.anyImmediate :: classified.tokens, value := some value }

structure Immediate where
  bytes : List UInt8
  references : List Reference
  deriving DecidableEq, Repr

/-- The bytes of a number in `width` bytes: one byte as it is, and otherwise a word. -/
def immediateBytes (order : ByteOrder) (width value : Nat) : List UInt8 :=
  if width = 1 then [UInt8.ofNat value] else order.splitWord (UInt16.ofNat value)

def immediateOf (order : ByteOrder) (line width : Nat) : Option Value → Except Failure Immediate
  | some (.address name) =>
      -- zeros keep the place of an address that is not known before all blocks are laid out
      .ok
        { bytes := List.replicate width 0
          references := [{ position := 1, name, width }] }
  | some (.number value) =>
      if width = 0 then .ok { bytes := [], references := [] }
      else if value < 256 ^ width then
        .ok { bytes := immediateBytes order width value, references := [] }
      else refuseNumber line value (.valueTooWide value width)
  | none =>
      if width = 0 then .ok { bytes := [], references := [] } else .error .operandWithoutValue

def instructionText (instruction : Instruction) : String :=
  if instruction.operands.isEmpty then instruction.mnemonic
  else instruction.mnemonic ++ " " ++ ",".intercalate instruction.operands

def formFor (table : OpcodeTable) (declared : Declarations) (line : Nat)
    (instruction : Instruction) : Except Failure (UInt8 × Form × Option Value) := do
  if !table.hasMnemonic instruction.mnemonic then
    refuse line (.unknownMnemonic instruction.mnemonic)
  checkOperands line instruction.operands
  let literals := table.literalOperands instruction.mnemonic
  let classified ← instruction.operands.foldlM (classify declared line literals)
    { tokens := [], value := none }
  let noForm := Cause.noForm instruction.mnemonic instruction.operands
  match table.encode (instruction.mnemonic :: classified.tokens.reverse) with
  | none => refuse line noForm
  | some opcode =>
      match table.form? opcode with
      | none => refuse line noForm
      | some form => return (opcode, form, classified.value)

/-- The block of an instruction, behind `before` bytes of the program. -/
def instructionBlock (table : OpcodeTable) (order : ByteOrder) (declared : Declarations)
    (line before : Nat) (label : String) (instruction : Instruction) : Except Failure Block := do
  let (opcode, form, value) ← formFor table declared line instruction
  if longestProgram < before + form.length then refuse line .programTooLong
  let immediate ← immediateOf order line form.width value
  return {
    line
    label
    text := instructionText instruction
    size := form.length
    cycles := form.cycles
    states := form.states
    bytes := opcode :: immediate.bytes
    references := immediate.references }

def dataValue (declared : Declarations) (line : Nat) (operand : String) : Except Failure Value := do
  match ← valueOf declared line operand with
  | .address name => return .address name
  | .number value =>
      if value < 256 then return .number value
      else refuseNumber line value (.byteTooWide value)

/-- The byte of a data operand before addresses are known. -/
def Value.byte : Value → UInt8
  | .number value => UInt8.ofNat value
  | .address _ => 0

def Value.reference? (position : Nat) : Value → Option Reference
  | .number _ => none
  | .address name => some { position, name, width := 1 }

def dataBlock (declared : Declarations) (line before : Nat) (label : String)
    (instruction : Instruction) : Except Failure Block := do
  if instruction.operands.isEmpty then refuse line .noData
  checkOperands line instruction.operands
  if longestProgram < before + instruction.operands.length then refuse line .programTooLong
  let values ← instruction.operands.mapM (dataValue declared line)
  return {
    line
    label
    text := instructionText instruction
    size := values.length
    cycles := 0
    states := 0
    bytes := values.map Value.byte
    references := values.zipIdx.filterMap fun (value, position) => value.reference? position }

def blockOf (table : OpcodeTable) (order : ByteOrder) (declared : Declarations)
    (line before : Nat) (label : String) (instruction : Instruction) : Except Failure Block :=
  if instruction.mnemonic == dataDirective then dataBlock declared line before label instruction
  else instructionBlock table order declared line before label instruction

end Intel8085.Assembly
