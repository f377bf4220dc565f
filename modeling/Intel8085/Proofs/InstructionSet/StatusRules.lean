import Intel8085.Proofs.InstructionSet.StandardForms
import Intel8085.Proofs.Machine.StatusRules

/-!
# The status rules of the instructions

The mnemonic and the operands of a form say which status rule it follows (`Form.statusRule`).  The
operations of the standard table follow the rules of their forms (`statusRule_of_standard`), which
is checked once for each opcode.
-/

set_option autoImplicit false

namespace Intel8085

/-- The instructions whose result is the new accumulator. -/
def resultMnemonics : List String :=
  ["ADD", "ADC", "ADI", "ACI", "SUB", "SBB", "SUI", "SBI", "ANA", "ANI", "XRA", "XRI", "ORA", "ORI",
    "DAA"]

def comparisonMnemonics : List String :=
  ["CMP", "CPI"]

def countMnemonics : List String :=
  ["INR", "DCR"]

/-- The instructions that touch no condition but the carry. -/
def carryMnemonics : List String :=
  ["DAD", "RLC", "RRC", "RAL", "RAR", "STC", "CMC"]

/-- The byte locations that an instruction can name as an operand, each with its letter. -/
def namedLocations : List (String × Location) :=
  [("B", .register .b), ("C", .register .c), ("D", .register .d), ("E", .register .e),
    ("H", .register .h), ("L", .register .l), ("M", .memory), ("A", .register .a)]

namespace Form

/-- The operand that a form names: a location by its letter, or else the byte behind the opcode. -/
def operand (form : Form) : Operand :=
  match namedLocations.find? fun entry => form.operands == [entry.1] with
  | some entry => .location entry.2
  | none => .immediate

def statusRule (form : Form) : StatusRule :=
  if resultMnemonics.contains form.mnemonic then .accumulator
  else if comparisonMnemonics.contains form.mnemonic then .comparison form.operand
  else if countMnemonics.contains form.mnemonic then .count form.operand
  else if carryMnemonics.contains form.mnemonic then .carryOnly
  else if form.tokens == ["POP", "PSW"] then .popped
  else .kept

end Form

/-- The rule is one about the byte behind the opcode. -/
def StatusRule.isOfImmediate : StatusRule → Bool
  | .comparison .immediate => true
  | .count .immediate => true
  | _ => false

theorem StatusRule.obeyed_of_other {rule : StatusRule} (other : rule.isOfImmediate = false)
    {first : UInt8} {before after : Machine} (obeyed : rule.Obeyed first before after)
    (second : UInt8) : rule.Obeyed second before after := by
  cases rule with
  | comparison operand =>
      cases operand with
      | immediate => cases other
      | location location => exact obeyed
  | count operand =>
      cases operand with
      | immediate => cases other
      | location location => exact obeyed
  | _ => exact obeyed

namespace Form

/-! ## The check -/

/-- The operation follows the rule of the form, and a rule about the byte behind the opcode is one of
a form that has this byte. -/
def agreesOnStatus (form : Form) : Bool :=
  form.operation.statusRule? == some form.statusRule &&
    (!form.statusRule.isOfImmediate || form.width == 1)

theorem status_checked :
    (List.range 256).all (fun opcode => (Standard.formOf opcode).all agreesOnStatus) = true := by
  decide +kernel

section Standard

variable {opcode : UInt8} {form : Form} (found : OpcodeTable.standard.form? opcode = some form)
include found

theorem statusRule_of_standard : form.operation.statusRule? = some form.statusRule := by
  have agrees := OpcodeTable.standard_forall status_checked found
  simp only [agreesOnStatus, Bool.and_eq_true, beq_iff_eq] at agrees
  exact agrees.1

theorem width_of_status (ofImmediate : form.statusRule.isOfImmediate = true) : form.width = 1 := by
  have agrees := OpcodeTable.standard_forall status_checked found
  simp only [agreesOnStatus, ofImmediate, Bool.and_eq_true, Bool.not_true, Bool.false_or,
    beq_iff_eq] at agrees
  exact agrees.2

end Standard

end Form

end Intel8085
