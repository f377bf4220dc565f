import Intel8085.Proofs.Disassembly.Sweep

/-!
# The wording of instruction lines

An instruction line reads like an instruction of the assembly language (`text_codeLine`): each
operand token is written as it is, and a placeholder as the value of the immediate with two digits
for each of its bytes (`operandText_of_placeholder`).
-/

set_option autoImplicit false

namespace Intel8085.Disassembly

open Intel8085.Source Intel8085.Assembly

/-- The instruction that an instruction line writes. -/
def codeInstruction (form : Form) (value : Nat) : Instruction where
  mnemonic := form.mnemonic
  operands := form.operands.map (operandText value)

theorem operandText_of_literal {token : String} (value : Nat)
    (noPlaceholder : Token.isPlaceholder token = false) : operandText value token = token := by
  rw [Token.isPlaceholder, Bool.or_eq_false_iff] at noPlaceholder
  simp only [operandText, noPlaceholder.1, noPlaceholder.2, Bool.false_eq_true, if_false]

theorem operandText_of_placeholder {form : Form} (regular : form.isRegular = true) {token : String}
    (isOperand : token ∈ form.operands) (placeholder : Token.isPlaceholder token = true)
    (value : Nat) :
    operandText value token = String.ofList (hexLiteral (2 * form.width) value) := by
  have listed : token ∈ form.placeholders := List.mem_filter.2 ⟨isOperand, placeholder⟩
  rcases Form.placeholders_cases regular with ⟨bare, _⟩ | ⟨byte, width⟩ | ⟨word, width⟩
  · rw [bare] at listed
    exact absurd listed List.not_mem_nil
  · rw [byte, List.mem_singleton] at listed
    rw [listed, width]
    rfl
  · rw [word, List.mem_singleton] at listed
    rw [listed, width]
    rfl

theorem isPlain_codeInstruction {form : Form} (regular : form.isRegular = true) (value : Nat) :
    IsPlainInstruction (codeInstruction form value) := by
  refine ⟨Form.isPlainToken_mnemonic regular, ?_⟩
  intro operand member
  obtain ⟨token, isOperand, rfl⟩ := List.mem_map.1 member
  cases placeholder : Token.isPlaceholder token with
  | false =>
      rw [operandText_of_literal value placeholder]
      exact Form.isPlainToken_operand regular isOperand
  | true =>
      rw [operandText_of_placeholder regular isOperand placeholder]
      exact isPlainToken_hexLiteral (2 * form.width) value

theorem text_codeLine (order : ByteOrder) (form : Form) (opcode : UInt8) (bytes : List UInt8)
    (address : Int) :
    (codeLine order form opcode bytes address).text =
      instructionText (codeInstruction form (order.joinWord bytes).toNat) := by
  rw [instructionText]
  simp only [codeLine, codeInstruction, filledText, List.isEmpty_map]

end Intel8085.Disassembly
