import Intel8085.Proofs.Assembly.Labels
import Intel8085.Proofs.Source.Inlining

/-!
# Assembling with addresses in the place of labels

A label is never an operand that stands for itself, and neither is a hexadecimal literal, so a
statement with an address in the place of a label is looked up as before.  Its block has the bytes
that the old block has once it is linked, and no reference is left to resolve; hence a source text
with all its labels replaced is assembled to the same program (`assemble_inlineLabels`).
-/

set_option autoImplicit false

namespace Intel8085.Assembly

open Intel8085.Text Intel8085.Source

/-! ## Labels and literals -/

/-- An operand that a form spells out cannot be a label: it is the name of a register, or else no
identifier. -/
theorem literals_checked :
    (List.range 256).all (fun opcode => (Standard.formOf opcode).all fun form =>
      form.literals.all fun token => isRegisterWord token || !isIdentifier token) = true := by
  decide +kernel

theorem isReserved_of_isRegisterWord (table : OpcodeTable) {name : String}
    (named : isRegisterWord name = true) : isReserved table name = true := by
  have listed : name ∈ reservedWords :=
    List.mem_append_left _ (List.contains_iff_mem.1 named)
  rw [isReserved, List.contains_iff_mem.2 listed]
  rfl

theorem isIdentifier_hexLiteral (digits number : Nat) :
    isIdentifier (String.ofList (hexLiteral digits number)) = false := by
  obtain ⟨first, rest, written, _, isDigit⟩ := exists_digit_cons_hexLiteral digits number
  have upperBound : first ≤ '9' := by
    rw [Bool.and_eq_true, decide_eq_true_eq, decide_eq_true_eq] at isDigit
    exact isDigit.2
  have noLetter : ¬ 'A' ≤ first := by
    intro lowerBound
    exact absurd (Char.le_trans lowerBound upperBound) (by decide)
  have noUnderscore : ¬ first = '_' := by
    rintro rfl
    exact absurd upperBound (by decide)
  rw [isIdentifier, String.toList_ofList, written]
  simp [isIdentifierStart, noLetter, noUnderscore]

/-- An operand names a label that is declared, or it stays. -/
theorem inlineOperand_cases {declared : Declarations} {labels : List (String × Nat)}
    (sameNames : ∀ name, (declared.lookup name).isSome = (labels.lookup name).isSome)
    (operand : String) :
    (∃ address, labels.lookup operand = some address ∧ operand ∈ declared.map Prod.fst ∧
        inlineOperand labels operand = String.ofList (hexLiteral 4 address)) ∨
      declared.lookup operand = none ∧ inlineOperand labels operand = operand := by
  have same := sameNames operand
  rw [inlineOperand]
  cases named : labels.lookup operand with
  | some address =>
      rw [named] at same
      exact Or.inl ⟨address, rfl, isSome_lookup_iff.1 same, rfl⟩
  | none =>
      rw [named] at same
      exact Or.inr ⟨Option.not_isSome_iff_eq_none.1 (by rw [same]; decide), rfl⟩

theorem any_isMalformed_inlineOperand {labels : List (String × Nat)} {operands : List String}
    (wellFormed : operands.any isMalformed = false) :
    (operands.map (inlineOperand labels)).any isMalformed = false := by
  rw [List.any_eq_false] at wellFormed
  rw [List.any_map, List.any_eq_false]
  intro operand member
  rw [Function.comp_apply]
  rw [inlineOperand]
  split
  · rename_i address _
    rw [isMalformed_of_isPlainToken (isPlainToken_hexLiteral 4 address)]
    decide
  · exact wellFormed operand member

/-- The value of an operand as a number, once labels have addresses. -/
def Value.located (labels : List (String × Nat)) (value : Value) : Value :=
  .number (value.resolve labels)

section Operands

variable {declared : Declarations} (proper : AreProper .standard declared)
include proper

theorem isLiteral_of_declared {name : String} (member : name ∈ declared.map Prod.fst)
    (mnemonic : String) :
    isLiteral (OpcodeTable.standard.literalOperands mnemonic) name = false := by
  have noRegister : isRegisterWord name = false := by
    apply Bool.eq_false_iff.2
    intro named
    exact absurd (isReserved_of_isRegisterWord .standard named)
      (by rw [proper.unreserved name member]; decide)
  rw [isLiteral, noRegister, Bool.false_or]
  apply Bool.eq_false_iff.2
  intro listed
  obtain ⟨opcode, form, found, _, spelled⟩ :=
    (OpcodeTable.mem_literalOperands_iff _ _ _).1 (List.contains_iff_mem.1 listed)
  have checked := List.all_eq_true.1 (OpcodeTable.standard_forall literals_checked found) name
    spelled
  rw [noRegister, proper.identifier name member] at checked
  exact absurd checked (by decide)

theorem lookup_hexLiteral (digits number : Nat) :
    declared.lookup (String.ofList (hexLiteral digits number)) = none := by
  rw [← Option.not_isSome_iff_eq_none, isSome_lookup_iff]
  intro member
  have identifier := proper.identifier _ member
  rw [isIdentifier_hexLiteral] at identifier
  exact absurd identifier (by decide)

variable {labels : List (String × Nat)}
  (sameNames : ∀ name, (declared.lookup name).isSome = (labels.lookup name).isSome)
include sameNames

theorem isLiteral_inlineOperand {mnemonic : String} (plain : isPlainToken mnemonic = true)
    (operand : String) :
    isLiteral (OpcodeTable.standard.literalOperands mnemonic) (inlineOperand labels operand) =
      isLiteral (OpcodeTable.standard.literalOperands mnemonic) operand := by
  rcases inlineOperand_cases sameNames operand with ⟨address, _, member, same⟩ | ⟨_, same⟩
  · rw [same, isLiteral_hexLiteral plain, isLiteral_of_declared proper member]
  · rw [same]

theorem operandFits_inlineOperand {mnemonic : String} (plain : isPlainToken mnemonic = true)
    {operand token : String}
    (fits : OperandFits (OpcodeTable.standard.literalOperands mnemonic) operand token) :
    OperandFits (OpcodeTable.standard.literalOperands mnemonic) (inlineOperand labels operand)
      token := by
  cases fits with
  | literal spelled noPlaceholder =>
      rcases inlineOperand_cases sameNames operand with ⟨_, _, member, _⟩ | ⟨_, same⟩
      · rw [isLiteral_of_declared proper member] at spelled
        exact absurd spelled (by decide)
      · rw [same]
        exact .literal spelled noPlaceholder
  | immediate free placeholder =>
      rw [← isLiteral_inlineOperand proper sameNames plain] at free
      exact .immediate free placeholder

theorem immediateOperands_inlineOperand {mnemonic : String} (plain : isPlainToken mnemonic = true)
    (operands : List String) :
    immediateOperands (OpcodeTable.standard.literalOperands mnemonic)
        (operands.map (inlineOperand labels)) =
      (immediateOperands (OpcodeTable.standard.literalOperands mnemonic) operands).map
        (inlineOperand labels) := by
  rw [immediateOperands, List.filter_map, immediateOperands]
  congr 1
  apply List.filter_congr
  intro operand _
  rw [Function.comp_apply, isLiteral_inlineOperand proper sameNames plain]

/-- An address in the place of a label has the value of the label, and any other operand keeps its
value. -/
theorem valueOf_inlineOperand {line : Nat} {operand : String} {value : Value}
    (read : valueOf declared line operand = .ok value) :
    valueOf declared line (inlineOperand labels operand) = .ok (value.located labels) := by
  rcases inlineOperand_cases sameNames operand with
    ⟨address, named, member, same⟩ | ⟨unnamed, same⟩
  · rw [valueOf, isSome_lookup_iff.2 member] at read
    cases read
    rw [same, valueOf_hexLiteral (lookup_hexLiteral proper 4 address), Value.located, Value.resolve,
      addressOf, named]
    rfl
  · cases value with
    | number number =>
        rw [same]
        exact read
    | address name =>
        rw [valueOf, unnamed] at read
        simp only [Option.isSome_none, Bool.false_eq_true, if_false] at read
        split at read
        · cases read
        · cases read
        · split at read
          · exact absurd read refuse_ne_ok
          · exact absurd read refuse_ne_ok

/-! ## Statements -/

theorem formFor_inline {line : Nat} {instruction : Instruction} {opcode : UInt8} {form : Form}
    {value : Option Value}
    (success : formFor .standard declared line instruction = .ok (opcode, form, value)) :
    formFor .standard declared line (instruction.inline labels) =
      .ok (opcode, form, value.map (Value.located labels)) := by
  obtain ⟨found, mnemonic, fits, wellFormed, values, read, last⟩ :=
    formFor_standard_eq_ok_iff.1 success
  have plain : isPlainToken instruction.mnemonic = true := by
    rw [← mnemonic]
    exact Form.isPlainToken_mnemonic (Form.isRegular_of_standard found)
  rw [formFor_standard_eq_ok_iff]
  refine ⟨found, mnemonic, ?_, any_isMalformed_inlineOperand wellFormed,
    values.map (Value.located labels), ?_, ?_⟩
  · rw [Instruction.inline, List.forall₂_map_left_iff]
    exact fits.imp fun _ _ => operandFits_inlineOperand proper sameNames plain
  · rw [mapM_eq_ok_iff] at read
    rw [Instruction.inline, immediateOperands_inlineOperand proper sameNames plain, mapM_eq_ok_iff,
      List.forall₂_map_left_iff, List.forall₂_map_right_iff]
    exact read.imp fun _ _ => valueOf_inlineOperand proper sameNames
  · rw [List.getLast?_map, last]

theorem instructionBlock_inline {order : ByteOrder} {line before : Nat} {label : String}
    {instruction : Instruction} {block : Block}
    (emitted : instructionBlock .standard order declared line before label instruction = .ok block)
    (resolvable : ∀ reference ∈ block.references, Resolvable labels reference) :
    ∃ other, instructionBlock .standard order declared line before label
        (instruction.inline labels) = .ok other ∧
      other.references = [] ∧ other.bytes = block.linked order labels := by
  obtain ⟨opcode, form, value, immediate, looked, fits, filled, rfl⟩ :=
    instructionBlock_eq_ok_iff.1 emitted
  have lookedAgain := formFor_inline proper sameNames looked
  rcases immediate_of_formFor looked with ⟨width, rfl, _⟩ | ⟨hasBytes, _, number, _, _, rfl⟩
  · rw [immediateOf, if_pos width] at filled
    cases filled
    refine ⟨codeBlock line label (instruction.inline labels) opcode form
      { bytes := [], references := [] }, ?_, rfl, rfl⟩
    rw [instructionBlock_eq_ok_iff]
    refine ⟨opcode, form, none, _, lookedAgain, fits, ?_, rfl⟩
    rw [immediateOf, if_pos width]
  · obtain ⟨narrow, linked⟩ : number.resolve labels < 256 ^ form.width ∧
        (codeBlock line label instruction opcode form immediate).linked order labels =
          opcode :: immediateBytes order form.width (number.resolve labels) :=
      linked_codeBlock hasBytes filled resolvable
    have wide : ¬ form.width = 0 := by omega
    refine ⟨codeBlock line label (instruction.inline labels) opcode form
      { bytes := immediateBytes order form.width (number.resolve labels), references := [] },
      ?_, rfl, linked.symm⟩
    rw [instructionBlock_eq_ok_iff]
    refine ⟨opcode, form, some (number.located labels), _, lookedAgain, fits, ?_, rfl⟩
    rw [Value.located, immediateOf, if_neg wide, if_pos narrow]

theorem dataValue_inlineOperand {line : Nat} {operand : String} {value : Value}
    (read : dataValue declared line operand = .ok value) (small : value.resolve labels < 256) :
    dataValue declared line (inlineOperand labels operand) = .ok (value.located labels) := by
  rw [dataValue, valueOf_inlineOperand proper sameNames (dataValue_eq_ok read).1]
  exact if_pos small

theorem dataBlock_inline (order : ByteOrder) {line before : Nat} {label : String}
    {instruction : Instruction} {block : Block}
    (emitted : dataBlock declared line before label instruction = .ok block)
    (resolvable : ∀ reference ∈ block.references, Resolvable labels reference) :
    ∃ other, dataBlock declared line before label (instruction.inline labels) = .ok other ∧
      other.references = [] ∧ other.bytes = block.linked order labels := by
  obtain ⟨listed, wellFormed, fits, values, read, rfl⟩ := dataBlock_eq_ok_iff.1 emitted
  refine ⟨dataBlockOf line label (instruction.inline labels) (values.map (Value.located labels)),
    ?_, ?_, ?_⟩
  · rw [dataBlock_eq_ok_iff]
    refine ⟨?_, any_isMalformed_inlineOperand wellFormed, ?_,
      values.map (Value.located labels), ?_, rfl⟩
    · rw [Instruction.inline, ne_eq, List.map_eq_nil_iff]
      exact listed
    · rw [Instruction.inline, List.length_map]
      exact fits
    · rw [Instruction.inline, List.forall₂_map_left_iff, List.forall₂_map_right_iff]
      apply forall₂_of_mem read
      intro operand _ value isValue isRead
      exact dataValue_inlineOperand proper sameNames isRead
        (resolve_lt_of_dataValue resolvable isValue isRead)
  · rw [dataBlockOf, List.zipIdx_map, List.filterMap_map, List.filterMap_eq_nil_iff]
    intro position _
    rfl
  · rw [linked_dataBlockOf, dataBlockOf, List.map_map]
    rfl

/-- The block of a statement with addresses in the place of its labels has the bytes that the old
block has once it is linked. -/
theorem blockOf_inline {order : ByteOrder} {line before : Nat} {label : String}
    {instruction : Instruction} {block : Block}
    (emitted : blockOf .standard order declared line before label instruction = .ok block)
    (resolvable : ∀ reference ∈ block.references, Resolvable labels reference) :
    ∃ other, blockOf .standard order declared line before label (instruction.inline labels) =
        .ok other ∧
      other.references = [] ∧ other.bytes = block.linked order labels := by
  have sameMnemonic : (instruction.inline labels).mnemonic = instruction.mnemonic := rfl
  rw [blockOf] at emitted
  rw [blockOf, sameMnemonic]
  by_cases isData : (instruction.mnemonic == dataDirective) = true
  · rw [if_pos isData] at emitted ⊢
    exact dataBlock_inline proper sameNames order emitted resolvable
  · rw [if_neg isData] at emitted ⊢
    exact instructionBlock_inline proper sameNames emitted resolvable

/-! ## Programs -/

/-- The statements lie as before, since blocks keep their lengths. -/
theorem lays_inline {order : ByteOrder} {size : Nat} {pending : String}
    {numbered : List NumberedStatement} {blocks : List Block} {addresses : List (String × Nat)}
    (lays : Lays .standard order declared size pending numbered blocks addresses)
    (resolvable : ∀ block ∈ blocks, ∀ reference ∈ block.references, Resolvable labels reference) :
    ∃ others, Lays .standard order declared size pending
        (numbered.map (NumberedStatement.inline labels)) others addresses ∧
      (∀ block ∈ others, block.references = []) ∧
      others.flatMap Block.bytes = blocks.flatMap (Block.linked order labels) := by
  induction lays with
  | nil => exact ⟨[], .nil, fun _ member => absurd member List.not_mem_nil, rfl⟩
  | @bare size pending first _ blocks _ noInstruction _ inductionHypothesis =>
      obtain ⟨others, later, unreferring, bytes⟩ := inductionHypothesis resolvable
      have noInstructionToo : (first.inline labels).statement.instruction = none := by
        rw [NumberedStatement.inline, Statement.inline, noInstruction]
        rfl
      exact ⟨others, .bare noInstructionToo later, unreferring, bytes⟩
  | @block size pending first _ instruction block blocks _ hasInstruction emitted _
      inductionHypothesis =>
      obtain ⟨firstResolvable, restResolvable⟩ := List.forall_mem_cons.1 resolvable
      obtain ⟨other, emittedToo, noReferences, bytes⟩ :=
        blockOf_inline proper sameNames emitted firstResolvable
      obtain ⟨others, later, unreferring, restBytes⟩ := inductionHypothesis restResolvable
      have hasInstructionToo : (first.inline labels).statement.instruction =
          some (instruction.inline labels) := by
        rw [NumberedStatement.inline, Statement.inline, hasInstruction]
        rfl
      have sameLength : block.bytes.length = other.bytes.length := by
        rw [bytes, Block.length_linked order labels (isSound_blockOf emitted)]
      rw [sameLength] at later
      refine ⟨other :: others, .block hasInstructionToo emittedToo later,
        List.forall_mem_cons.2 ⟨noReferences, unreferring⟩, ?_⟩
      rw [List.flatMap_cons, List.flatMap_cons, bytes, restBytes]

theorem lookup_empty : labels.lookup "" = none := by
  rw [← Option.not_isSome_iff_eq_none, ← sameNames, isSome_lookup_iff]
  intro member
  exact absurd (proper.identifier "" member) (by decide)

end Operands

/-- Replacing operands leaves the labels that statements define as they are. -/
theorem declarations_inline (table : OpcodeTable) (labels : List (String × Nat))
    (numbered : List NumberedStatement) :
    declarations table (numbered.map (NumberedStatement.inline labels)) =
      declarations table numbered := by
  rw [declarations, List.foldlM_map, declarations]
  rfl

/-- With the addresses of a program in the place of its labels, the source text is assembled to the
same code and the same labels.  Only operands have been replaced, and no reference is left to
resolve.  The labels are those that the text defines, each once, and each has for its address the
number of bytes that statements on earlier lines emit. -/
theorem assemble_inlineLabels (config : Config) (source : List Char) {program : Program}
    (assembles : assemble .standard config.operandOrder source = .ok program) :
    (statements (inlineLabels program.labels source) =
        (statements source).map (NumberedStatement.inline program.labels) ∧
      ∃ other, assemble .standard config.operandOrder (inlineLabels program.labels source) =
          .ok other ∧
        other.code = program.code ∧ other.labels = program.labels ∧ other.referenceCount = 0) ∧
    program.labels.map Prod.fst = labelNames (statements source) ∧
    (labelNames (statements source)).Nodup ∧
    ∀ one ∈ statements source, ∀ label, one.statement.label = some label →
      program.labels.lookup label.name = some (program.sizeBefore one.line) := by
  obtain ⟨declared, blocks, declares, lays, resolvable, _, sameCode, _⟩ :=
    assemble_standard_eq_ok_iff.1 assembles
  have proper := areProper_of_declarations declares
  have sameNames := isSome_lookup_of_lays declares lays
  have replaced := statements_inlineLabels (lookup_empty proper sameNames) source
  obtain ⟨others, othersLay, unreferring, bytes⟩ :=
    lays_inline proper sameNames lays resolvable
  refine ⟨⟨replaced, ?_⟩, labels_of_assemble assembles⟩
  refine ⟨⟨program.code, listingOf others program.code, placed 0 others, program.labels⟩, ?_, rfl,
    rfl, ?_⟩
  · rw [assemble_standard_eq_ok_iff, replaced, declarations_inline]
    refine ⟨declared, others, declares, othersLay, ?_, rfl, ?_, rfl⟩
    · intro block member reference refers
      rw [unreferring block member] at refers
      exact absurd refers List.not_mem_nil
    · rw [sameCode, ← bytes]
      apply List.flatMap_congr
      intro block member
      exact (Block.linked_of_references_eq_nil _ _ (unreferring block member)).symm
  · rw [Program.referenceCount, List.sum_eq_zero_iff_forall_eq_nat]
    intro count member
    obtain ⟨position, isPlaced, rfl⟩ := List.mem_map.1 member
    rw [unreferring position.block (mem_of_mem_placed isPlaced)]
    rfl

/-- Labels before and behind their definitions, in a word, in a byte and in data. -/
def tableSource : List Char :=
  "start: lxi h,Table ; ahead\nmvi a,start\njmp start\nTable: db table, 5".toList

theorem assemble_inlineLabels_of_tableSource :
    ∃ program, assemble .standard .big tableSource = .ok program ∧
      program.code = [0x21, 0x00, 0x08, 0x3E, 0x00, 0xC3, 0x00, 0x00, 0x08, 0x05] ∧
      inlineLabels program.labels tableSource =
        "start: lxi h,0008H ; ahead\nmvi a,0000H\njmp 0000H\nTable: db 0008H, 5".toList ∧
      (∃ other, assemble .standard .big (inlineLabels program.labels tableSource) = .ok other ∧
        other.code = program.code ∧ other.labels = program.labels) ∧
      program.labels.map Prod.fst = ["START", "TABLE"] := by
  obtain ⟨program, assembles, code, written⟩ :
      ∃ program, assemble .standard .big tableSource = .ok program ∧
        program.code = [0x21, 0x00, 0x08, 0x3E, 0x00, 0xC3, 0x00, 0x00, 0x08, 0x05] ∧
        inlineLabels program.labels tableSource =
          "start: lxi h,0008H ; ahead\nmvi a,0000H\njmp 0000H\nTable: db 0008H, 5".toList :=
    ⟨_, rfl, rfl, by decide +kernel⟩
  obtain ⟨⟨_, other, assemblesToo, sameCode, sameLabels, _⟩, names, _, _⟩ :=
    assemble_inlineLabels .standard tableSource assembles
  exact ⟨program, assembles, code, written, ⟨other, assemblesToo, sameCode, sameLabels⟩,
    names.trans (by decide +kernel)⟩

end Intel8085.Assembly
