import Intel8085.Numbers
import Intel8085.Proofs.InstructionSet.StandardForms
import Mathlib.Data.Nat.Bitwise

/-!
# Opcodes of transfers on a condition

Returns, jumps and calls exist with a condition and without.  The upper two bits of an opcode with a
condition are ones, its lowest three say which transfer it is, and the three between them say which
bit of the status byte counts and what it has to be.  The forms of the standard table agree with
these bits (`form_of_conditional`), which is checked once for each opcode.
-/

set_option autoImplicit false

namespace Intel8085

/-- The transfers that exist with a condition and without. -/
inductive TransferKind where
  | ret
  | jump
  | call
  deriving DecidableEq, Repr

namespace TransferKind

def all : List TransferKind :=
  [.ret, .jump, .call]

/-- The lowest three bits of the opcodes with a condition. -/
def column : TransferKind → Nat
  | .ret => 0
  | .jump => 2
  | .call => 4

/-- The opcode without a condition. -/
def opcode : TransferKind → UInt8
  | .ret => 0xC9
  | .jump => 0xC3
  | .call => 0xCD

/-- The number of bytes of the instruction, with a condition and without. -/
def length : TransferKind → Nat
  | .ret => 1
  | .jump => 3
  | .call => 3

def operation : TransferKind → Option Condition → Operation
  | .ret => .ret
  | .jump => .jump
  | .call => .call

/-- The opcode is one of the transfer on a condition. -/
def IsOnCondition (kind : TransferKind) (opcode : UInt8) : Prop :=
  opcode.toNat / 64 = 3 ∧ opcode.toNat % 8 = kind.column

instance (kind : TransferKind) (opcode : UInt8) : Decidable (kind.IsOnCondition opcode) :=
  inferInstanceAs (Decidable (_ ∧ _))

end TransferKind

/-- The position of the status bit that bits 5 and 4 of an opcode select: that of the zero, the
carry, the parity or the sign. -/
def selectedPosition (opcode : UInt8) : Nat :=
  match opcode.toNat / 16 % 4 with
  | 0 => 6
  | 1 => 0
  | 2 => 2
  | _ => 7

/-- The selected bit of the status byte equals bit 3 of the opcode. -/
def ConditionHolds (opcode status : UInt8) : Prop :=
  status.toNat.testBit (selectedPosition opcode) = opcode.toNat.testBit 3

instance (opcode status : UInt8) : Decidable (ConditionHolds opcode status) :=
  inferInstanceAs (Decidable (_ = _))

theorem Flags.holds_eq_testBit {bit : UInt8} {position : Nat} (isBit : bit.toNat = 2 ^ position)
    (status : UInt8) : holds bit status = status.toNat.testBit position := by
  have masked : (status &&& bit).toNat = (status.toNat.testBit position).toNat * 2 ^ position := by
    rw [UInt8.toNat_and, isBit, Nat.and_two_pow]
  have none : status &&& bit = 0 ↔ status.toNat.testBit position = false := by
    rw [← UInt8.toNat_inj, masked, UInt8.toNat_zero, Nat.mul_eq_zero]
    simp
  rw [holds, Bool.eq_iff_iff, bne_iff_ne, Ne, none]
  simp

/-- A condition that looks at the selected bit and wants it to equal bit 3 of the opcode. -/
def Condition.isOf (condition : Condition) (opcode : UInt8) : Bool :=
  condition.bit.toNat == 2 ^ selectedPosition opcode && condition.wanted == opcode.toNat.testBit 3

theorem Condition.holdsIn_iff {condition : Condition} {opcode : UInt8}
    (selected : condition.isOf opcode = true) (status : UInt8) :
    condition.holdsIn status = true ↔ ConditionHolds opcode status := by
  simp only [isOf, Bool.and_eq_true, beq_iff_eq] at selected
  rw [holdsIn, Flags.holds_eq_testBit selected.1, selected.2, beq_iff_eq, ConditionHolds]

namespace TransferKind

/-! ## The check -/

/-- The form is the transfer on the condition that the opcode says. -/
def agreesWith (kind : TransferKind) (opcode : UInt8) (form : Form) : Bool :=
  form.length == kind.length && Condition.all.any fun condition =>
    condition.isOf opcode && form.operation == kind.operation (some condition)

theorem conditional_checked :
    (List.range 256).all (fun number => all.all fun kind =>
      !decide (kind.IsOnCondition (UInt8.ofNat number)) ||
        (Standard.formOf number).any (kind.agreesWith (UInt8.ofNat number))) = true := by
  decide +kernel

theorem unconditional_checked :
    all.all (fun kind => (Standard.formOf kind.opcode.toNat).any fun form =>
      form.length == kind.length && form.operation == kind.operation none) = true := by
  decide +kernel

theorem mem_all (kind : TransferKind) : kind ∈ all := by
  cases kind <;> decide

variable {kind : TransferKind}

theorem form_of_conditional {opcode : UInt8} (onCondition : kind.IsOnCondition opcode) :
    ∃ form condition, OpcodeTable.standard.form? opcode = some form ∧ form.length = kind.length ∧
      form.operation = kind.operation (some condition) ∧
        ∀ status, condition.holdsIn status = true ↔ ConditionHolds opcode status := by
  have member : opcode.toNat ∈ List.range 256 := List.mem_range.mpr opcode.toNat_lt
  have checked := List.all_eq_true.mp
    (List.all_eq_true.mp conditional_checked opcode.toNat member) kind kind.mem_all
  rw [UInt8.ofNat_toNat, decide_eq_true onCondition, Bool.not_true, Bool.false_or,
    Option.any_eq_true] at checked
  obtain ⟨form, found, agrees⟩ := checked
  simp only [agreesWith, Bool.and_eq_true, beq_iff_eq, List.any_eq_true] at agrees
  obtain ⟨length, condition, _, selected, operation⟩ := agrees
  rw [← OpcodeTable.standard_form?] at found
  exact ⟨form, condition, found, length, operation, Condition.holdsIn_iff selected⟩

theorem form_of_unconditional (kind : TransferKind) :
    ∃ form, OpcodeTable.standard.form? kind.opcode = some form ∧ form.length = kind.length ∧
      form.operation = kind.operation none := by
  have checked := List.all_eq_true.mp unconditional_checked kind kind.mem_all
  obtain ⟨form, found, agrees⟩ := (Option.any_eq_true _ _).mp checked
  simp only [Bool.and_eq_true, beq_iff_eq] at agrees
  rw [← OpcodeTable.standard_form?] at found
  exact ⟨form, found, agrees⟩

end TransferKind

end Intel8085
