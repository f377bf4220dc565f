import Intel8085.Proofs.InstructionSet.StandardForms
import Intel8085.Proofs.Machine.Locality

/-!
# The cells that instructions touch

The mnemonic and the operands of a form say which cells of memory it touches apart from its own
bytes (`Form.access`).  The operations of the standard table touch the cells of their forms
(`access_of_standard`), which is checked once for each opcode.
-/

set_option autoImplicit false

namespace Intel8085

/-- The operand that stands for the cell at HL. -/
def memoryToken : String := "M"

/-- The instructions with the address of a byte behind the opcode. -/
def directMnemonics : List String :=
  ["LDA", "STA"]

/-- The instructions with the address of a word behind the opcode. -/
def directWordMnemonics : List String :=
  ["LHLD", "SHLD"]

def indirectMnemonics : List String :=
  ["LDAX", "STAX"]

/-- The instructions that always touch the word at the stack pointer. -/
def poppingMnemonics : List String :=
  ["POP", "RET", "XTHL"]

/-- The instructions that always touch the word below the stack pointer. -/
def pushingMnemonics : List String :=
  ["PUSH", "CALL", "RST"]

/-- The output to a port. -/
def outputMnemonic : String := "OUT"

/-- The pairs that can hold the address of an indirect access, each with its letter. -/
def namedPointers : List (String × Pair) :=
  [("B", .bc), ("D", .de)]

namespace Form

/-- The access of a return or a call on a condition. -/
def conditionalAccess (mnemonic : String) (condition : Condition) : Option Access :=
  if mnemonic == "R" ++ condition.suffix then some (.popped (some condition))
  else if mnemonic == "C" ++ condition.suffix then some (.pushed (some condition))
  else none

def access (form : Form) : Access :=
  if form.operands.contains memoryToken then .atHL
  else if directMnemonics.contains form.mnemonic then .atImmediate
  else if directWordMnemonics.contains form.mnemonic then .wordAtImmediate
  else if indirectMnemonics.contains form.mnemonic then
    match namedPointers.find? fun entry => form.operands == [entry.1] with
    | some entry => .atPair entry.2
    | none => .nowhere
  else if poppingMnemonics.contains form.mnemonic then .popped none
  else if pushingMnemonics.contains form.mnemonic then .pushed none
  else (Condition.all.findSome? (conditionalAccess form.mnemonic)).getD .nowhere

end Form

/-- The access is one at an address behind the opcode. -/
def Access.isDirect : Access → Bool
  | .atImmediate => true
  | .wordAtImmediate => true
  | _ => false

theorem Access.cells_of_other {access : Access} (other : access.isDirect = false)
    (first second : UInt16) (machine : Machine) :
    access.cells first machine = access.cells second machine := by
  cases access with
  | atImmediate => cases other
  | wordAtImmediate => cases other
  | _ => rfl

namespace Form

/-! ## The check -/

/-- The operation touches the cells of the form, an access at an address behind the opcode is one of
a form that has a word there, and the output has the number of its port there. -/
def agreesOnAccess (form : Form) : Bool :=
  form.operation.access == form.access &&
    (!form.access.isDirect || form.width == 2) &&
    (form.operation != .output || form.mnemonic == outputMnemonic && form.width == 1)

theorem access_checked :
    (List.range 256).all (fun opcode => (Standard.formOf opcode).all agreesOnAccess) = true := by
  decide +kernel

section Standard

variable {opcode : UInt8} {form : Form} (found : OpcodeTable.standard.form? opcode = some form)
include found

theorem access_of_standard : form.operation.access = form.access := by
  have agrees := OpcodeTable.standard_forall access_checked found
  simp only [agreesOnAccess, Bool.and_eq_true, beq_iff_eq] at agrees
  exact agrees.1.1

theorem width_of_direct (direct : form.access.isDirect = true) : form.width = 2 := by
  have agrees := OpcodeTable.standard_forall access_checked found
  simp only [agreesOnAccess, Bool.and_eq_true, Bool.or_eq_true, direct, beq_iff_eq] at agrees
  exact agrees.1.2.resolve_left (by simp)

theorem output_of_standard (outputs : form.operation = .output) :
    form.mnemonic = outputMnemonic ∧ form.width = 1 := by
  have agrees := OpcodeTable.standard_forall access_checked found
  simp only [agreesOnAccess, Bool.and_eq_true, Bool.or_eq_true, outputs, beq_iff_eq] at agrees
  exact agrees.2.resolve_left (by simp)

end Standard

end Form

end Intel8085
