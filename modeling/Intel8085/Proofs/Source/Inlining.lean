import Intel8085.Proofs.Source.HexLiteral
import Intel8085.Proofs.Source.Rewriting

/-!
# Addresses in the place of labels

Every operand of a source text that names a label is replaced by the address of the label, written
with four hexadecimal digits; nothing else of the text changes.  The statements of the new text are
those of the old one with their operands replaced (`statements_inlineLabels`).
-/

set_option autoImplicit false

namespace Intel8085.Source

open Intel8085.Text

/-! ## Text -/

/-- An operand as it is written, with the address in its place if it names a label. -/
def inlineToken (labels : List (String × Nat)) (token : List Char) : List Char :=
  match labels.lookup (capitalText token) with
  | some address => hexLiteral 4 address
  | none => token

def inlineOperandText (labels : List (String × Nat)) : List Char → List Char :=
  mapRuns (· == ',') (mapTrimmed (inlineToken labels))

def inlineInstructionText (labels : List (String × Nat)) : List Char → List Char :=
  mapAfterWord (inlineOperandText labels)

def inlineCode (labels : List (String × Nat)) (code : List Char) : List Char :=
  if (word code).getLast? == some ':' then mapAfterWord (inlineInstructionText labels) code
  else inlineInstructionText labels code

/-- A source text with an address in the place of every operand that names a label. -/
def inlineLabels (labels : List (String × Nat)) (source : List Char) : List Char :=
  mapRuns isLineBreak (mapCode (inlineCode labels)) source

/-! ## Statements -/

def inlineOperand (labels : List (String × Nat)) (operand : String) : String :=
  match labels.lookup operand with
  | some address => String.ofList (hexLiteral 4 address)
  | none => operand

def Instruction.inline (labels : List (String × Nat)) (instruction : Instruction) : Instruction where
  mnemonic := instruction.mnemonic
  operands := instruction.operands.map (inlineOperand labels)

def Statement.inline (labels : List (String × Nat)) (statement : Statement) : Statement where
  label := statement.label
  instruction := statement.instruction.map (Instruction.inline labels)

def NumberedStatement.inline (labels : List (String × Nat)) (numbered : NumberedStatement) :
    NumberedStatement where
  line := numbered.line
  statement := numbered.statement.inline labels

section Inlining

variable {labels : List (String × Nat)} (named : labels.lookup "" = none)

theorem hexLiteral_ne_nil (digits number : Nat) : hexLiteral digits number ≠ [] := by
  rw [hexLiteral_eq]
  exact List.append_ne_nil_of_right_ne_nil _ (List.cons_ne_nil _ _)

theorem isPlain_of_mem_hexLiteral {digits number : Nat} {character : Char}
    (member : character ∈ hexLiteral digits number) : isPlain character = true := by
  have plain := isPlain_of_isPlainToken (isPlainToken_hexLiteral digits number)
  rw [String.toList_ofList] at plain
  exact plain character member

theorem capitalText_inlineToken (token : List Char) :
    capitalText (inlineToken labels token) = inlineOperand labels (capitalText token) := by
  rw [inlineToken, inlineOperand]
  cases labels.lookup (capitalText token) with
  | none => rfl
  | some address =>
      simp only
      rw [capitalText, capitals_of_isPlain fun _ => isPlain_of_mem_hexLiteral]

/-- The word that begins the code, which may be a label, stays. -/
theorem inlineCode_cases (labels : List (String × Nat)) (code : List Char) :
    ((word code).getLast? == some ':') = true ∧
        inlineCode labels code = mapAfterWord (inlineInstructionText labels) code ∨
      ((word code).getLast? == some ':') = false ∧
        inlineCode labels code = inlineInstructionText labels code := by
  rw [inlineCode]
  cases (word code).getLast? == some ':' with
  | true => exact Or.inl ⟨rfl, rfl⟩
  | false => exact Or.inr ⟨rfl, rfl⟩

include named

theorem keeps_inlineToken : Keeps (inlineToken labels) where
  empty := by
    have noName : capitalText [] = "" := rfl
    rw [inlineToken, noName, named]
  nonempty := by
    intro token some
    rw [inlineToken]
    split
    · exact hexLiteral_ne_nil 4 _
    · exact some
  adds := by
    intro token character member
    rw [inlineToken] at member
    split at member
    · exact Or.inr (isPlain_of_mem_hexLiteral member)
    · exact Or.inl member
  starts := by
    intro token starts
    rw [inlineToken]
    split
    · exact startsPlain_of_free fun _ member => isBlank_of_isPlain (isPlain_of_mem_hexLiteral member)
    · exact starts
  ends := by
    intro token ends
    rw [inlineToken]
    split
    · exact endsPlain_of_free fun _ member => isBlank_of_isPlain (isPlain_of_mem_hexLiteral member)
    · exact ends

theorem keeps_inlineOperandText : Keeps (inlineOperandText labels) := by
  apply keeps_mapRuns (keeps_mapTrimmed (keeps_inlineToken named))
  intro separator isComma
  rw [beq_iff_eq.1 isComma]
  decide

theorem keeps_inlineInstructionText : Keeps (inlineInstructionText labels) :=
  keeps_mapAfterWord (keeps_inlineOperandText named)

theorem keeps_inlineCode : Keeps (inlineCode labels) := by
  apply keeps_of_either (keeps_mapAfterWord (keeps_inlineInstructionText named))
    (keeps_inlineInstructionText named)
  intro code
  exact (inlineCode_cases labels code).imp And.right And.right

/-! ## Reading the new text -/

theorem operandsOf_inline (text : List Char) :
    operandsOf (inlineOperandText labels text) =
      (operandsOf text).map (inlineOperand labels) := by
  have token := keeps_inlineToken named
  rw [operandsOf, operandsOf, isEmpty_of_keeps (keeps_inlineOperandText named)]
  split
  · rfl
  · rw [inlineOperandText, splitAtCommas_mapRuns (keeps_mapTrimmed token), List.map_map,
      List.map_map]
    apply List.map_congr_left
    intro part _
    rw [Function.comp_apply, Function.comp_apply, trim_mapTrimmed token, capitalText_inlineToken]

theorem instructionOf_inline (text : List Char) :
    instructionOf (inlineInstructionText labels text) = (instructionOf text).inline labels := by
  have operands := keeps_inlineOperandText named
  rw [instructionOf, inlineInstructionText, word_mapAfterWord operands,
    afterWord_mapAfterWord operands, operandsOf_inline named]
  rfl

theorem instructionOf?_inline (text : List Char) :
    instructionOf? (inlineInstructionText labels text) =
      (instructionOf? text).map (Instruction.inline labels) := by
  rw [instructionOf?, instructionOf?, isEmpty_of_keeps (keeps_inlineInstructionText named),
    instructionOf_inline named]
  split
  · rfl
  · rfl

theorem statementOf?_inline (line : List Char) :
    statementOf? (mapCode (inlineCode labels) line) =
      (statementOf? line).map (Statement.inline labels) := by
  have instruction := keeps_inlineInstructionText named
  simp only [statementOf?, codeOf_mapCode (keeps_inlineCode named),
    isEmpty_of_keeps (keeps_inlineCode named)]
  split
  · rfl
  · rcases inlineCode_cases labels (codeOf line) with ⟨isLabel, same⟩ | ⟨noLabel, same⟩
    · simp only [same, word_mapAfterWord instruction, afterWord_mapAfterWord instruction, isLabel,
        if_true, instructionOf?_inline named]
      rfl
    · have sameWord : word (inlineInstructionText labels (codeOf line)) = word (codeOf line) :=
        word_mapAfterWord (keeps_inlineOperandText named) (codeOf line)
      simp only [same, sameWord, noLabel, Bool.false_eq_true, if_false, instructionOf_inline named]
      rfl

/-- The statements of the new text are the old ones with their operands replaced. -/
theorem statements_inlineLabels (source : List Char) :
    statements (inlineLabels labels source) =
      (statements source).map (NumberedStatement.inline labels) := by
  rw [statements, inlineLabels, lines_mapCode (keeps_inlineCode named), List.zipIdx_map,
    List.filterMap_map, statements, List.map_filterMap]
  congr 1
  funext numberedLine
  obtain ⟨line, index⟩ := numberedLine
  simp only [Function.comp_apply, Prod.map, id_eq, statementOf?_inline named, Option.map_map]
  rfl

end Inlining

end Intel8085.Source
