import Intel8085.InstructionSet.Standard
import Intel8085.Proofs.InstructionSet.Lookup
import Intel8085.Proofs.Source.HexLiteral

/-!
# The forms of the standard table

What is checked once for each of the 256 opcodes and holds of every form of the standard table
(`Form.isRegular`): its tokens are plain, it has at most one placeholder, and an operand that it
spells out is the name of a register or the number of a restart.  So an operand of source text is a
literal operand of the table exactly when it is one of those.
-/

set_option autoImplicit false

namespace Intel8085

open Intel8085.Text Intel8085.Source Intel8085.Assembly

/-- The restarts, whose operand is a number that the opcode holds. -/
def restartMnemonic : String := "RST"

/-- The placeholders among the operands of a form. -/
def Form.placeholders (form : Form) : List String :=
  form.operands.filter Token.isPlaceholder

/-- The operand that a form spells out is the name of a register, or the number of a restart. -/
def Form.spellsProperly (form : Form) (token : String) : Bool :=
  isRegisterWord token || (form.mnemonic == restartMnemonic && token.toList.length == 1)

/-- The form has plain tokens, proper operands, and room for one immediate at most, which no restart
has. -/
def Form.isRegular (form : Form) : Bool :=
  isPlainToken form.mnemonic && form.mnemonic != dataDirective &&
    !Token.isPlaceholder form.mnemonic &&
    form.operands.all (fun token => isPlainToken token && token != Token.anyImmediate) &&
    form.literals.all form.spellsProperly &&
    (form.placeholders == [] && form.width == 0 ||
      form.mnemonic != restartMnemonic &&
        (form.placeholders == [Token.byte] && form.width == 1 ||
          form.placeholders == [Token.word] && form.width == 2))

/-! ## The check -/

theorem OpcodeTable.standard_form? (opcode : UInt8) :
    OpcodeTable.standard.form? opcode = Standard.formOf opcode.toNat := by
  have bound := opcode.toNat_lt
  change (Bank.tabulate Standard.formOf 8 0).get opcode.toNat = _
  rw [Bank.get_tabulate, Nat.zero_add, Nat.mod_eq_of_lt bound]

/-- A test that the forms of all 256 opcodes pass holds of every form of the standard table. -/
theorem OpcodeTable.standard_forall {test : Form → Bool}
    (checked : (List.range 256).all (fun opcode => (Standard.formOf opcode).all test) = true)
    {opcode : UInt8} {form : Form} (found : OpcodeTable.standard.form? opcode = some form) :
    test form = true := by
  have member : opcode.toNat ∈ List.range 256 := List.mem_range.2 opcode.toNat_lt
  have passes := List.all_eq_true.1 checked opcode.toNat member
  rw [OpcodeTable.standard_form?] at found
  rw [found] at passes
  exact passes

theorem regular_checked :
    (List.range 256).all (fun opcode => (Standard.formOf opcode).all Form.isRegular) = true := by
  decide +kernel

namespace Form

theorem isRegular_of_standard {opcode : UInt8} {form : Form}
    (found : OpcodeTable.standard.form? opcode = some form) : form.isRegular = true :=
  OpcodeTable.standard_forall regular_checked found

section Regular

variable {form : Form} (regular : form.isRegular = true)
include regular

theorem isPlainToken_mnemonic : isPlainToken form.mnemonic = true := by
  simp only [isRegular, Bool.and_eq_true] at regular
  exact regular.1.1.1.1.1

theorem mnemonic_ne_dataDirective : form.mnemonic ≠ dataDirective := by
  simp only [isRegular, Bool.and_eq_true, bne_iff_ne] at regular
  exact regular.1.1.1.1.2

theorem isPlaceholder_mnemonic : Token.isPlaceholder form.mnemonic = false := by
  simp only [isRegular, Bool.and_eq_true, Bool.not_eq_true'] at regular
  exact regular.1.1.1.2

theorem collapse_mnemonic : Token.collapse form.mnemonic = form.mnemonic := by
  rw [Token.collapse, isPlaceholder_mnemonic regular]
  rfl

theorem isPlainToken_operand {token : String} (member : token ∈ form.operands) :
    isPlainToken token = true := by
  simp only [isRegular, Bool.and_eq_true, List.all_eq_true] at regular
  exact (regular.1.1.2 token member).1

theorem operand_ne_anyImmediate {token : String} (member : token ∈ form.operands) :
    token ≠ Token.anyImmediate := by
  simp only [isRegular, Bool.and_eq_true, List.all_eq_true, bne_iff_ne] at regular
  exact (regular.1.1.2 token member).2

theorem spellsProperly_literal {token : String} (member : token ∈ form.literals) :
    form.spellsProperly token = true := by
  simp only [isRegular, Bool.and_eq_true, List.all_eq_true] at regular
  exact regular.1.2 token member

/-- A form has no immediate, one byte or one word. -/
theorem placeholders_cases :
    (form.placeholders = [] ∧ form.width = 0) ∨
      (form.placeholders = [Token.byte] ∧ form.width = 1) ∨
        (form.placeholders = [Token.word] ∧ form.width = 2) := by
  simp only [isRegular, Bool.and_eq_true, Bool.or_eq_true, beq_iff_eq] at regular
  exact regular.2.imp_right And.right

theorem placeholders_of_restart (restarts : form.mnemonic = restartMnemonic) :
    form.placeholders = [] := by
  simp only [isRegular, Bool.and_eq_true, Bool.or_eq_true, beq_iff_eq, bne_iff_ne] at regular
  rcases regular.2 with bare | ⟨other, _⟩
  · exact bare.1
  · exact absurd restarts other

theorem isPlaceholder_of_restart (restarts : form.mnemonic = restartMnemonic) {token : String}
    (member : token ∈ form.operands) : Token.isPlaceholder token = false := by
  apply Bool.eq_false_iff.2
  intro isPlaceholder
  have listed : token ∈ form.placeholders := List.mem_filter.2 ⟨member, isPlaceholder⟩
  rw [placeholders_of_restart regular restarts] at listed
  exact absurd listed List.not_mem_nil

theorem width_le_two : form.width ≤ 2 := by
  rcases placeholders_cases regular with bare | byte | word
  · omega
  · omega
  · omega

end Regular

end Form

/-! ## Literal operands -/

/-- Register names begin with a letter and restart numbers have one digit, so the number that
disassembly writes is never taken for either. -/
theorem isRegisterWord_hexLiteral (digits number : Nat) :
    isRegisterWord (String.ofList (hexLiteral digits number)) = false := by
  obtain ⟨first, rest, written, _, isDigit⟩ := exists_digit_cons_hexLiteral digits number
  have letters : registerWords.all (fun word =>
      word.toList.head?.all fun letter => !('0' ≤ letter && letter ≤ '9')) = true := by decide
  apply Bool.eq_false_iff.2
  intro named
  have isLetter := List.all_eq_true.1 letters _ (List.contains_iff_mem.1 named)
  rw [String.toList_ofList, written, List.head?_cons, Option.all_some, isDigit] at isLetter
  exact absurd isLetter (by decide)

namespace OpcodeTable

theorem isRegisterWord_or_restart {mnemonic token : String}
    (named : isPlainToken mnemonic = true)
    (spelled : token ∈ OpcodeTable.standard.literalOperands mnemonic) :
    isRegisterWord token = true ∨ (mnemonic = restartMnemonic ∧ token.toList.length = 1) := by
  obtain ⟨opcode, form, found, same, literal⟩ := (mem_literalOperands_iff _ _ _).1 spelled
  have proper := Form.spellsProperly_literal (Form.isRegular_of_standard found) literal
  rw [upperCase_of_isPlainToken named] at same
  rw [Form.spellsProperly, same] at proper
  simpa using proper

theorem contains_literalOperands_hexLiteral {mnemonic : String}
    (named : isPlainToken mnemonic = true) (digits number : Nat) :
    (OpcodeTable.standard.literalOperands mnemonic).contains
      (String.ofList (hexLiteral digits number)) = false := by
  apply Bool.eq_false_iff.2
  intro spelled
  rcases isRegisterWord_or_restart named (List.contains_iff_mem.1 spelled) with register | restart
  · rw [isRegisterWord_hexLiteral] at register
    exact absurd register (by decide)
  · obtain ⟨first, rest, written, some, _⟩ := exists_digit_cons_hexLiteral digits number
    rw [String.toList_ofList, written, List.length_cons, Nat.add_eq_right,
      List.length_eq_zero_iff] at restart
    exact some restart.2

end OpcodeTable

end Intel8085
