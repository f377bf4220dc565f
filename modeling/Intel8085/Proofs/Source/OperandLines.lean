import Intel8085.Proofs.Source.LineEdits
import Intel8085.Proofs.Source.Numbering

/-!
# Lines with operands

A mnemonic, a blank and operands with commas between are a statement with these operands, whatever
the operands are, as long as none holds a blank, a comma or a semicolon
(`statementOf?_operandLine`).  Behind the lines of a text it is one more statement
(`statements_of_operandLine`).
-/

set_option autoImplicit false

namespace Intel8085.Source

open Intel8085.Text

/-- A text that can be an operand by itself. -/
structure IsOperandText (text : List Char) : Prop where
  isWord : IsWord text
  noComma : ',' ∉ text

instance (text : List Char) : Decidable (IsOperandText text) :=
  decidable_of_iff (IsWord text ∧ ',' ∉ text)
    ⟨fun ⟨isWord, noComma⟩ => ⟨isWord, noComma⟩, fun ⟨isWord, noComma⟩ => ⟨isWord, noComma⟩⟩

/-- The statement of a line that has an instruction and no label. -/
def unlabelled (line : Nat) (instruction : Instruction) : NumberedStatement where
  line := line
  statement := { label := none, instruction := some instruction }

/-- A mnemonic and its operands, with a blank behind it and commas between them. -/
def operandLine (mnemonic : List Char) (texts : List (List Char)) : List Char :=
  mnemonic ++ ' ' :: List.intercalate [','] texts

section Texts

variable {texts : List (List Char)} (areOperands : ∀ text ∈ texts, IsOperandText text)
include areOperands

theorem mem_intercalate_comma {character : Char}
    (member : character ∈ List.intercalate [','] texts) :
    isBlank character = false ∧ character ≠ ';' := by
  induction texts with
  | nil => exact absurd member (by simp)
  | cons text others inductionHypothesis =>
      obtain ⟨isOperand, othersAre⟩ := List.forall_mem_cons.1 areOperands
      have here (inText : character ∈ text) : isBlank character = false ∧ character ≠ ';' := by
        refine ⟨isOperand.isWord.plain character inText, ?_⟩
        rintro rfl
        exact isOperand.isWord.code inText
      cases others with
      | nil =>
          rw [List.intercalate_singleton] at member
          exact here member
      | cons next later =>
          rw [List.intercalate_cons_cons, List.mem_append, List.mem_append,
            List.mem_singleton] at member
          rcases member with (inText | rfl) | inOthers
          · exact here inText
          · decide
          · exact inductionHypothesis othersAre inOthers

theorem codeOf_intercalate_comma :
    codeOf (List.intercalate [','] texts) = List.intercalate [','] texts := by
  have plain : ∀ character ∈ List.intercalate [','] texts, isBlank character = false :=
    fun character member => (mem_intercalate_comma areOperands member).1
  have noComment : ';' ∉ List.intercalate [','] texts := fun member =>
    (mem_intercalate_comma areOperands member).2 rfl
  rw [codeOf_eq, uncommented_of_not_mem noComment]
  exact trim_eq_self (startsPlain_of_free plain) (endsPlain_of_free plain)

theorem operandsOf_intercalate_comma (listed : texts ≠ []) :
    operandsOf (List.intercalate [','] texts) = texts.map capitalText := by
  have written : (List.intercalate [','] texts).isEmpty = false := by
    obtain ⟨text, others, rfl⟩ := List.exists_cons_of_ne_nil listed
    have nonempty := (areOperands text List.mem_cons_self).isWord.nonempty
    rw [List.isEmpty_eq_false_iff]
    cases others with
    | nil => rwa [List.intercalate_singleton]
    | cons next later => simp [List.intercalate_cons_cons]
  rw [operandsOf, written,
    splitAtCommas_intercalate listed fun text member => (areOperands text member).noComma]
  apply List.map_congr_left
  intro text member
  have plain := (areOperands text member).isWord.plain
  rw [trim_eq_self (startsPlain_of_free plain) (endsPlain_of_free plain)]

theorem statementOf?_operandLine (listed : texts ≠ []) {mnemonic : List Char}
    (isWord : IsWord mnemonic) (noLabel : mnemonic.getLast? ≠ some ':') :
    statementOf? (operandLine mnemonic texts) =
      some
        { label := none
          instruction :=
            some { mnemonic := capitalText mnemonic, operands := texts.map capitalText } } := by
  have noIndent : AllBlank [] := by decide
  have isGap : IsGap [' '] := by decide
  have shape : operandLine mnemonic texts =
      [] ++ mnemonic ++ [' '] ++ List.intercalate [','] texts := by
    rw [operandLine, List.nil_append, List.append_assoc]
    rfl
  rw [shape, statementOf?_of_gap noIndent isWord isGap noLabel,
    codeOf_intercalate_comma areOperands, operandsOf_intercalate_comma areOperands listed]

/-- A text that goes on with one more line has one more statement. -/
theorem statements_of_operandLine {front source : List Char} (listed : texts ≠ [])
    {mnemonic : List Char} (isWord : IsWord mnemonic) (noLabel : mnemonic.getLast? ≠ some ':')
    (continues : lines source = lines front ++ [operandLine mnemonic texts]) :
    statements source = statements front ++
      [unlabelled ((lines front).length + 1)
        { mnemonic := capitalText mnemonic, operands := texts.map capitalText }] := by
  rw [statements_eq, continues, statementsFrom_append, ← statements_eq, statementsFrom_cons,
    statementOf?_operandLine areOperands listed isWord noLabel, Nat.zero_add]
  rfl

end Texts

end Intel8085.Source
