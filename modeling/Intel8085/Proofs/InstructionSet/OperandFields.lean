import Intel8085.Numbers
import Intel8085.Proofs.InstructionSet.StandardForms

/-!
# Opcodes with operand fields

The opcodes of moves and of byte operations hold the codes of their operands: three bits name a
register or the cell that HL addresses.  The forms of the standard table agree with these bits
(`form_of_move`, `form_of_byteOperation`), and a byte operation that takes an immediate has the opcode
that its code says.  All of this is checked once for each opcode.
-/

set_option autoImplicit false

namespace Intel8085

/-- The place that a code of three bits names. -/
def Location.ofCode (code : Nat) : Location :=
  match code with
  | 0 => .register .b
  | 1 => .register .c
  | 2 => .register .d
  | 3 => .register .e
  | 4 => .register .h
  | 5 => .register .l
  | 6 => .memory
  | _ => .register .a

/-- Bits 5 to 3 of an opcode. -/
def upperField (opcode : UInt8) : Nat :=
  opcode.toNat / 8 % 8

/-- Bits 2 to 0 of an opcode. -/
def lowerField (opcode : UInt8) : Nat :=
  opcode.toNat % 8

/-- The upper bits are those of a move, and the opcode is not the one of the halt, which stands in the
place of a move from memory to memory. -/
def IsMove (opcode : UInt8) : Prop :=
  opcode.toNat / 64 = 1 ∧ opcode ≠ 0x76

/-- The upper bits are those of a byte operation with a register or a cell of memory. -/
def IsByteOperation (opcode : UInt8) : Prop :=
  opcode.toNat / 64 = 2

/-- The opcode of the byte operation with an immediate byte and the same code. -/
def immediateOpcode (opcode : UInt8) : UInt8 :=
  UInt8.ofNat (0xC6 + 8 * upperField opcode)

instance (opcode : UInt8) : Decidable (IsMove opcode) :=
  inferInstanceAs (Decidable (_ ∧ _))

instance (opcode : UInt8) : Decidable (IsByteOperation opcode) :=
  inferInstanceAs (Decidable (_ = _))

def ByteOperation.all : List ByteOperation :=
  [.add, .addWithCarry, .subtract, .subtractWithBorrow, .conjunction, .exclusiveOr, .disjunction,
    .compare]

/-! ## The check -/

def Form.isMoveOf (opcode : UInt8) (form : Form) : Bool :=
  form.length == 1 &&
    form.operation == .move (.ofCode (upperField opcode)) (.ofCode (lowerField opcode))

def Form.accumulates (operation : ByteOperation) (operand : Operand) (length : Nat) (form : Form) :
    Bool :=
  form.length == length && form.operation == .accumulate operation operand

def movesByFields (opcode : UInt8) : Bool :=
  !decide (IsMove opcode) || (Standard.formOf opcode.toNat).any (Form.isMoveOf opcode)

/-- One byte operation has both the opcode and the one with an immediate. -/
def operatesByFields (opcode : UInt8) : Bool :=
  !decide (IsByteOperation opcode) || ByteOperation.all.any fun operation =>
    (Standard.formOf opcode.toNat).any
        (Form.accumulates operation (.location (.ofCode (lowerField opcode))) 1) &&
      (Standard.formOf (immediateOpcode opcode).toNat).any
        (Form.accumulates operation .immediate 2)

theorem movesByFields_checked :
    (List.range 256).all (fun number => movesByFields (UInt8.ofNat number)) = true := by
  decide +kernel

theorem operatesByFields_checked :
    (List.range 256).all (fun number => operatesByFields (UInt8.ofNat number)) = true := by
  decide +kernel

/-- A test that the numbers of all bytes pass holds of every byte. -/
theorem byte_forall {test : UInt8 → Bool}
    (checked : (List.range 256).all (fun number => test (UInt8.ofNat number)) = true)
    (byte : UInt8) : test byte = true := by
  have passes := List.all_eq_true.1 checked byte.toNat (List.mem_range.2 byte.toNat_lt)
  rwa [UInt8.ofNat_toNat] at passes

theorem exists_form_of_any {opcode : UInt8} {test : Form → Bool}
    (passes : (Standard.formOf opcode.toNat).any test = true) :
    ∃ form, OpcodeTable.standard.form? opcode = some form ∧ test form = true := by
  rw [OpcodeTable.standard_form?]
  exact (Option.any_eq_true _ _).1 passes

variable {opcode : UInt8}

theorem form_of_move (moves : IsMove opcode) :
    ∃ form, OpcodeTable.standard.form? opcode = some form ∧ form.length = 1 ∧
      form.operation = .move (.ofCode (upperField opcode)) (.ofCode (lowerField opcode)) := by
  have checked := byte_forall movesByFields_checked opcode
  rw [movesByFields, decide_eq_true moves, Bool.not_true, Bool.false_or] at checked
  obtain ⟨form, found, agrees⟩ := exists_form_of_any checked
  simp only [Form.isMoveOf, Bool.and_eq_true, beq_iff_eq] at agrees
  exact ⟨form, found, agrees⟩

/-- The operation of the opcode with a register or a cell is the one of the opcode with an
immediate. -/
theorem form_of_byteOperation (operates : IsByteOperation opcode) :
    ∃ operation,
      (∃ form, OpcodeTable.standard.form? opcode = some form ∧ form.length = 1 ∧
        form.operation = .accumulate operation (.location (.ofCode (lowerField opcode)))) ∧
      ∃ form, OpcodeTable.standard.form? (immediateOpcode opcode) = some form ∧ form.length = 2 ∧
        form.operation = .accumulate operation .immediate := by
  have checked := byte_forall operatesByFields_checked opcode
  rw [operatesByFields, decide_eq_true operates, Bool.not_true, Bool.false_or, List.any_eq_true]
    at checked
  obtain ⟨operation, _, agree⟩ := checked
  rw [Bool.and_eq_true] at agree
  obtain ⟨form, found, fits⟩ := exists_form_of_any agree.1
  obtain ⟨immediate, foundImmediate, fitsImmediate⟩ := exists_form_of_any agree.2
  simp only [Form.accumulates, Bool.and_eq_true, beq_iff_eq] at fits fitsImmediate
  exact ⟨operation, ⟨form, found, fits⟩, immediate, foundImmediate, fitsImmediate⟩

end Intel8085
