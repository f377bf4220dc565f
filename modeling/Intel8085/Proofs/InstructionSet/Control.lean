import Intel8085.Proofs.InstructionSet.StandardForms
import Intel8085.Proofs.Machine.Endings

/-!
# What the instructions of the standard table do with control

The mnemonic of a form says whether it is a transfer of control and where that goes, whether it
halts, and whether the machine models it.  The operations of the standard table agree with this
(`control_of_standard`), which is checked once for each opcode.
-/

set_option autoImplicit false

namespace Intel8085

/-- The instructions that no configuration models. -/
def unmodelledMnemonics : List String :=
  ["RIM", "SIM"]

/-- The instructions that a configuration may leave out. -/
def optionalMnemonics : List String :=
  ["DAA", "IN", "OUT"]

def haltMnemonic : String := "HLT"

/-- A restart goes to one of the first 64 addresses; every other target is a word. -/
def Target.isWithinMemory : Target → Bool
  | .restart number => decide (0 ≤ number ∧ number < 8)
  | _ => true

theorem Target.address_bounds {target : Target} (within : target.isWithinMemory = true)
    (word : UInt16) (machine : Machine) :
    0 ≤ target.address word machine ∧ target.address word machine ≤ 0xFFFF := by
  cases target with
  | immediate =>
      have bound := word.toNat_lt
      simp only [Target.address]
      omega
  | stackTop =>
      have bound := machine.top.toNat_lt
      simp only [Target.address]
      omega
  | restart number =>
      have small := of_decide_eq_true within
      simp only [Target.address]
      omega
  | pairHL =>
      have bound := machine.registers.hl.toNat_lt
      simp only [Target.address]
      omega

/-- A transfer on a condition: a jump or a call to the address behind the opcode, or a return. -/
def Condition.transfer? (mnemonic : String) (condition : Condition) : Option Transfer :=
  if mnemonic = "J" ++ condition.suffix ∨ mnemonic = "C" ++ condition.suffix then
    some { target := .immediate, condition := some condition }
  else if mnemonic = "R" ++ condition.suffix then
    some { target := .stackTop, condition := some condition }
  else none

namespace Form

/-- The number of a restart, as its operand gives it. -/
def restart? (form : Form) : Option Nat :=
  (List.range 8).find? fun number => form.operands = [toString number]

/-- The transfer of control that a form stands for, if it stands for one. -/
def transfer? (form : Form) : Option Transfer :=
  if form.mnemonic = "JMP" ∨ form.mnemonic = "CALL" then
    some { target := .immediate, condition := none }
  else if form.mnemonic = "RET" then some { target := .stackTop, condition := none }
  else if form.mnemonic = "PCHL" then some { target := .pairHL, condition := none }
  else if form.mnemonic = restartMnemonic then
    form.restart?.map fun number => { target := .restart number, condition := none }
  else Condition.all.findSome? (Condition.transfer? form.mnemonic)

/-- The configuration does not model the instruction. -/
def isUnmodelled (config : Config) (form : Form) : Bool :=
  unmodelledMnemonics.contains form.mnemonic ||
    optionalMnemonics.contains form.mnemonic && !config.modelsIoAndBcd

def control (form : Form) : Control :=
  if unmodelledMnemonics.contains form.mnemonic then .unmodelled
  else if optionalMnemonics.contains form.mnemonic then .modelledOnly
  else if form.mnemonic = haltMnemonic then .halt
  else
    match form.transfer? with
    | some transfer => .transfer transfer
    | none => .sequential

/-! ## The check -/

/-- The operation does with control what the mnemonic says; a port is named by a byte; a halt has no
operand; and a transfer is always modelled and goes to a word behind the opcode, if it does not go
where the machine says or to a restart. -/
def agreesOnControl (form : Form) : Bool :=
  form.operation.control == form.control &&
    (!form.operation.isOnPort || form.width == 1) &&
    (form.mnemonic != haltMnemonic || form.width == 0) &&
    form.transfer?.all fun transfer =>
      form.control == .transfer transfer && transfer.target.isWithinMemory &&
        (transfer.target != .immediate || form.width == 2)

theorem control_checked :
    (List.range 256).all (fun opcode => (Standard.formOf opcode).all agreesOnControl) = true := by
  decide +kernel

section Standard

variable {opcode : UInt8} {form : Form} (found : OpcodeTable.standard.form? opcode = some form)
include found

theorem control_of_standard : form.operation.control = form.control := by
  have agrees := OpcodeTable.standard_forall control_checked found
  simp only [agreesOnControl, Bool.and_eq_true, beq_iff_eq] at agrees
  exact agrees.1.1.1

theorem width_of_port (onPort : form.operation.isOnPort = true) : form.width = 1 := by
  have agrees := OpcodeTable.standard_forall control_checked found
  simp only [agreesOnControl, Bool.and_eq_true, Bool.or_eq_true, Bool.not_eq_true', beq_iff_eq]
    at agrees
  exact agrees.1.1.2.resolve_left (by simp [onPort])

theorem width_of_halt (halts : form.mnemonic = haltMnemonic) : form.width = 0 := by
  have agrees := OpcodeTable.standard_forall control_checked found
  simp only [agreesOnControl, Bool.and_eq_true, Bool.or_eq_true, bne_iff_ne, beq_iff_eq] at agrees
  exact agrees.1.2.resolve_left (not_not_intro halts)

variable {transfer : Transfer} (transfers : form.transfer? = some transfer)
include transfers

theorem control_of_transfer : form.control = .transfer transfer := by
  have agrees := OpcodeTable.standard_forall control_checked found
  simp only [agreesOnControl, Bool.and_eq_true, transfers, Option.all_some, beq_iff_eq] at agrees
  exact agrees.2.1.1

theorem isWithinMemory_of_transfer : transfer.target.isWithinMemory = true := by
  have agrees := OpcodeTable.standard_forall control_checked found
  simp only [agreesOnControl, Bool.and_eq_true, transfers, Option.all_some] at agrees
  exact agrees.2.1.2

theorem width_of_immediate (immediate : transfer.target = .immediate) : form.width = 2 := by
  have agrees := OpcodeTable.standard_forall control_checked found
  simp only [agreesOnControl, Bool.and_eq_true, transfers, Option.all_some, Bool.or_eq_true,
    bne_iff_ne, beq_iff_eq] at agrees
  exact agrees.2.2.resolve_left (not_not_intro immediate)

end Standard

end Form

end Intel8085
