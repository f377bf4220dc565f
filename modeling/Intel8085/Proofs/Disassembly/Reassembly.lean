import Intel8085.Proofs.Assembly.Layout
import Intel8085.Proofs.Disassembly.Wording

/-!
# Assembling what was disassembled

The source text that disassembly writes for an image is assembled to the image again, whatever bytes
it has, as long as a program may have so many bytes; the text of a longer image is refused for its
length (`assemble_toSource`).
-/

set_option autoImplicit false

namespace Intel8085.Disassembly

open Intel8085.Text Intel8085.Source Intel8085.Assembly

/-- Without labels the instruction is assembled to these bytes, if there is room for them. -/
structure Emits (order : ByteOrder) (instruction : Instruction) (raw : List UInt8) : Prop where
  fits : ∀ line before label, before + raw.length ≤ longestProgram →
    ∃ block, blockOf .standard order [] line before label instruction = .ok block ∧
      block.bytes = raw ∧ block.references = []
  tooLong : ∀ line before label, longestProgram < before + raw.length →
    blockOf .standard order [] line before label instruction = refuse line .programTooLong

/-! ## Data lines -/

/-- The data directive that a data line writes. -/
def dataInstruction (raw : List UInt8) : Instruction where
  mnemonic := dataDirective
  operands := raw.map fun byte => String.ofList (hexLiteral 2 byte.toNat)

theorem isPlain_dataInstruction (raw : List UInt8) : IsPlainInstruction (dataInstruction raw) := by
  have directivePlain : isPlainToken dataDirective = true := by decide
  refine ⟨directivePlain, ?_⟩
  intro operand member
  obtain ⟨byte, _, rfl⟩ := List.mem_map.1 member
  exact isPlainToken_hexLiteral 2 byte.toNat

theorem text_dataLine {raw : List UInt8} (holdsBytes : raw ≠ []) (address : Int) :
    (dataLine raw address).text = instructionText (dataInstruction raw) := by
  have listed : (dataInstruction raw).operands.isEmpty = false := by
    simpa [dataInstruction] using holdsBytes
  rw [instructionText, listed]
  rfl

theorem dataValue_hexLiteral (line : Nat) (byte : UInt8) :
    dataValue [] line (String.ofList (hexLiteral 2 byte.toNat)) = .ok (.number byte.toNat) := by
  have small := byte.toNat_lt
  rw [dataValue, valueOf_hexLiteral rfl]
  exact if_pos small

theorem emits_data (order : ByteOrder) {raw : List UInt8} (holdsBytes : raw ≠ []) :
    Emits order (dataInstruction raw) raw := by
  have directive : ((dataInstruction raw).mnemonic == dataDirective) = true := by
    rw [beq_iff_eq]
    rfl
  have listed : (dataInstruction raw).operands ≠ [] := by
    simpa [dataInstruction] using holdsBytes
  have proper := any_isMalformed_of_plain (isPlain_dataInstruction raw).2
  have count : (dataInstruction raw).operands.length = raw.length := List.length_map _
  constructor
  · intro line before label fits
    have values : List.Forall₂ (fun operand value => dataValue [] line operand = .ok value)
        (dataInstruction raw).operands ((raw.map UInt8.toNat).map Value.number) := by
      rw [dataInstruction, List.map_map, List.forall₂_map_left_iff, List.forall₂_map_right_iff,
        List.forall₂_same]
      intro byte _
      exact dataValue_hexLiteral line byte
    have sameBytes : (raw.map UInt8.toNat).map UInt8.ofNat = raw := by
      rw [List.map_map]
      exact (List.map_congr_left fun byte _ => UInt8.ofNat_toNat).trans (List.map_id raw)
    obtain ⟨bytes, noReferences⟩ :=
      dataBlockOf_numbers line label (dataInstruction raw) (raw.map UInt8.toNat)
    refine ⟨_, ?_, bytes.trans sameBytes, noReferences⟩
    rw [blockOf, if_pos directive, dataBlock_eq_ok_iff]
    exact ⟨listed, proper, by rw [count]; exact fits, _, values, rfl⟩
  · intro line before label tooLong
    rw [blockOf, if_pos directive]
    exact dataBlock_of_too_long listed proper (by rw [count]; exact tooLong)

/-! ## Instruction lines -/

theorem codeInstruction_eq {form : Form} (regular : form.isRegular = true) (value : Nat) :
    codeInstruction form value =
      filledInstruction form (String.ofList (hexLiteral (2 * form.width) value)) := by
  rw [codeInstruction, filledInstruction, filledOperands]
  congr 1
  apply List.map_congr_left
  intro token isOperand
  cases placeholder : Token.isPlaceholder token with
  | false => exact operandText_of_literal value placeholder
  | true => exact operandText_of_placeholder regular isOperand placeholder value

theorem formFor_codeInstruction {opcode : UInt8} {form : Form}
    (found : OpcodeTable.standard.form? opcode = some form) (line value : Nat) :
    ∃ last, formFor .standard [] line (codeInstruction form value) = .ok (opcode, form, last) ∧
      (form.width = 0 ∧ last = none ∨
        (form.width = 1 ∨ form.width = 2) ∧ last = some (.number value)) := by
  have regular := Form.isRegular_of_standard found
  have free := isLiteral_hexLiteral (Form.isPlainToken_mnemonic regular) (2 * form.width) value
  have proper := any_isMalformed_of_plain (isPlain_codeInstruction regular value).2
  have filled := codeInstruction_eq regular value
  rw [filled] at proper ⊢
  exact formFor_filledOperands found free proper (valueOf_hexLiteral rfl line)

theorem emits_code (order : ByteOrder) {opcode : UInt8} {form : Form}
    (found : OpcodeTable.standard.form? opcode = some form) {bytes : List UInt8}
    (complete : bytes.length = form.width) :
    Emits order (codeInstruction form (order.joinWord bytes).toNat) (opcode :: bytes) := by
  have regular := Form.isRegular_of_standard found
  have noDirective : ¬ ((codeInstruction form (order.joinWord bytes).toNat).mnemonic ==
      dataDirective) = true := by
    rw [beq_iff_eq]
    exact Form.mnemonic_ne_dataDirective regular
  have sameLength : (opcode :: bytes).length = form.length := by
    rw [List.length_cons, complete, Form.length, Nat.add_comm]
  constructor
  · intro line before label fits
    obtain ⟨last, looked, kinds⟩ := formFor_codeInstruction found line (order.joinWord bytes).toNat
    have filled : immediateOf order line form.width last = .ok { bytes, references := [] } := by
      rcases kinds with ⟨width, rfl⟩ | ⟨proper, rfl⟩
      · obtain rfl : bytes = [] := List.length_eq_zero_iff.1 (complete.trans width)
        rw [immediateOf, if_pos width]
      · obtain ⟨narrow, same⟩ := immediateBytes_joinWord order proper complete
        have hasBytes : ¬ form.width = 0 := by omega
        rw [immediateOf, if_neg hasBytes, if_pos narrow, same]
    refine ⟨codeBlock line label (codeInstruction form (order.joinWord bytes).toNat) opcode form
      { bytes, references := [] }, ?_, rfl, rfl⟩
    rw [blockOf, if_neg noDirective, instructionBlock_eq_ok_iff]
    exact ⟨opcode, form, last, _, looked, by rw [← sameLength]; exact fits, filled, rfl⟩
  · intro line before label tooLong
    obtain ⟨last, looked, _⟩ := formFor_codeInstruction found line (order.joinWord bytes).toNat
    rw [blockOf, if_neg noDirective]
    exact instructionBlock_of_too_long looked (by rw [← sameLength]; exact tooLong)

/-! ## All lines -/

theorem exists_instruction_of_standsFor {order : ByteOrder} {line : Line}
    (stands : StandsFor order line) :
    ∃ instruction, IsPlainInstruction instruction ∧ line.text = instructionText instruction ∧
      Emits order instruction line.raw := by
  cases stands with
  | @data raw address holdsBytes =>
      exact ⟨dataInstruction raw, isPlain_dataInstruction raw, text_dataLine holdsBytes address,
        emits_data order holdsBytes⟩
  | @code opcode form bytes address found complete =>
      exact ⟨codeInstruction form (order.joinWord bytes).toNat,
        isPlain_codeInstruction (Form.isRegular_of_standard found) _,
        text_codeLine order form opcode bytes address, emits_code order found complete⟩

theorem exists_instructions_of_standsFor {order : ByteOrder} {lines : List Line}
    (stand : ∀ line ∈ lines, StandsFor order line) :
    ∃ instructions, (∀ instruction ∈ instructions, IsPlainInstruction instruction) ∧
      lines.map Line.text = instructions.map instructionText ∧
      List.Forall₂ (Emits order) instructions (lines.map Line.raw) := by
  induction lines with
  | nil => exact ⟨[], fun instruction member => absurd member List.not_mem_nil, rfl, .nil⟩
  | cons line others inductionHypothesis =>
      obtain ⟨instruction, plain, text, emits⟩ :=
        exists_instruction_of_standsFor (stand line List.mem_cons_self)
      obtain ⟨instructions, othersPlain, texts, othersEmit⟩ := inductionHypothesis
        fun other member => stand other (List.mem_cons_of_mem line member)
      refine ⟨instruction :: instructions, ?_, ?_, .cons emits othersEmit⟩
      · rw [List.forall_mem_cons]
        exact ⟨plain, othersPlain⟩
      · rw [List.map_cons, List.map_cons, text, texts]

/-- The statement has no label and an instruction that emits the bytes. -/
def StatementEmits (order : ByteOrder) (numbered : NumberedStatement) (raw : List UInt8) : Prop :=
  numbered.statement.label = none ∧
    ∃ instruction, numbered.statement.instruction = some instruction ∧ Emits order instruction raw

theorem statementsEmit_of_emits {order : ByteOrder} {instructions : List Instruction}
    {raws : List (List UInt8)} (emit : List.Forall₂ (Emits order) instructions raws) (index : Nat) :
    List.Forall₂ (StatementEmits order)
      ((instructions.zipIdx index).map fun (instruction, index) =>
        { line := index + 1, statement := { label := none, instruction := some instruction } })
      raws := by
  induction emit generalizing index with
  | nil => exact .nil
  | @cons instruction raw _ _ emits _ inductionHypothesis =>
      rw [List.zipIdx_cons, List.map_cons]
      exact .cons ⟨rfl, instruction, rfl, emits⟩ (inductionHypothesis (index + 1))

theorem declarations_of_statementsEmit {order : ByteOrder} {numbered : List NumberedStatement}
    {raws : List (List UInt8)} (emit : List.Forall₂ (StatementEmits order) numbered raws) :
    declarations .standard numbered = .ok [] := by
  rw [declarations]
  induction emit with
  | nil => rfl
  | @cons first raw _ _ emits _ inductionHypothesis =>
      have noLabel : declare .standard [] first = .ok [] := by
        rw [declare, emits.1]
      rw [List.foldlM_cons, noLabel]
      exact inductionHypothesis

theorem lays_of_statementsEmit {order : ByteOrder} {numbered : List NumberedStatement}
    {raws : List (List UInt8)} (emit : List.Forall₂ (StatementEmits order) numbered raws)
    {size : Nat} (pending : String) (fits : size + raws.flatten.length ≤ longestProgram) :
    ∃ blocks, Lays .standard order [] size pending numbered blocks [] ∧
      (∀ block ∈ blocks, block.references = []) ∧ blocks.map Block.bytes = raws := by
  induction emit generalizing size pending with
  | nil => exact ⟨[], .nil, fun block member => absurd member List.not_mem_nil, rfl⟩
  | @cons first raw others rest emits _ inductionHypothesis =>
      obtain ⟨noLabel, instruction, hasInstruction, emitted⟩ := emits
      rw [List.flatten_cons, List.length_append] at fits
      obtain ⟨block, laid, rfl, noReferences⟩ :=
        emitted.fits first.line size (shownLabel pending first.statement.label) (by omega)
      obtain ⟨blocks, later, unreferring, bytes⟩ :=
        inductionHypothesis "" (by omega : size + block.bytes.length + _ ≤ _)
      have lays := Lays.block hasInstruction laid later
      rw [noLabel] at lays
      refine ⟨block :: blocks, lays, ?_, ?_⟩
      · rw [List.forall_mem_cons]
        exact ⟨noReferences, unreferring⟩
      · rw [List.map_cons, bytes]

theorem foldlM_lay_of_too_long {order : ByteOrder} {numbered : List NumberedStatement}
    {raws : List (List UInt8)} (emit : List.Forall₂ (StatementEmits order) numbered raws)
    {layout : Layout} (small : layout.size ≤ longestProgram)
    (tooLong : longestProgram < layout.size + raws.flatten.length) :
    ∃ line, numbered.foldlM (lay .standard order []) layout = refuse line .programTooLong := by
  induction emit generalizing layout with
  | nil =>
      rw [List.flatten_nil, List.length_nil] at tooLong
      omega
  | @cons first raw others rest emits _ inductionHypothesis =>
      obtain ⟨noLabel, instruction, hasInstruction, emitted⟩ := emits
      rw [List.flatten_cons, List.length_append] at tooLong
      rw [List.foldlM_cons, lay_of_instruction hasInstruction]
      by_cases fits : layout.size + raw.length ≤ longestProgram
      · obtain ⟨block, laid, rfl, _⟩ := emitted.fits first.line layout.size
          (shownLabel layout.pending first.statement.label) fits
        have grown : ((layout.define first.statement.label).append block).size =
            layout.size + block.bytes.length := by
          rw [define_eq, Layout.append]
        rw [laid]
        exact inductionHypothesis (by rw [grown]; exact fits) (by rw [grown]; omega)
      · rw [emitted.tooLong first.line layout.size _ (by omega)]
        exact ⟨first.line, rfl⟩

/-! ## Images -/

/-- Assembling the disassembly of an image gives the image, or refuses it for its length. -/
theorem assemble_toSource (config : Config) (image : List UInt8) :
    ∃ source, toSource .standard config.operandOrder image = .ok source ∧
      (image.length ≤ longestProgram →
        ∃ program, assemble .standard config.operandOrder source.toList = .ok program ∧
          program.code = image) ∧
      (longestProgram < image.length →
        ∃ error, assemble .standard config.operandOrder source.toList = .error (.refused error) ∧
          error.cause.kind = .dataOutOfRange) := by
  obtain ⟨lines, swept, stand, bytes⟩ := exists_swept_standard config.operandOrder 0 image
  obtain ⟨instructions, plain, texts, emit⟩ := exists_instructions_of_standsFor stand
  have read := statements_intercalate plain
  have statementsEmit := statementsEmit_of_emits emit 0
  rw [← read] at statementsEmit
  have declares := declarations_of_statementsEmit statementsEmit
  rw [List.flatMap] at bytes
  refine ⟨"\n".intercalate (instructions.map instructionText), ?_, ?_, ?_⟩
  · rw [toSource, sweep_of_swept swept, ← texts]
    rfl
  · intro fits
    obtain ⟨blocks, lays, unreferring, raws⟩ :=
      lays_of_statementsEmit statementsEmit "" (by rw [bytes, Nat.zero_add]; exact fits)
    have linked : blocks.flatMap (Block.linked config.operandOrder []) = image := by
      rw [← bytes, ← raws, List.flatMap]
      congr 1
      apply List.map_congr_left
      intro block member
      exact Block.linked_of_references_eq_nil _ _ (unreferring block member)
    refine ⟨⟨image, listingOf blocks image, placed 0 blocks, []⟩, ?_, rfl⟩
    rw [assemble_standard_eq_ok_iff]
    refine ⟨[], blocks, declares, lays, ?_, rfl, linked.symm, rfl⟩
    intro block member reference refers
    rw [unreferring block member] at refers
    exact absurd refers List.not_mem_nil
  · intro tooLong
    have empty : (Layout.mk 0 "" [] []).size ≤ longestProgram := Nat.zero_le _
    obtain ⟨line, refused⟩ :=
      foldlM_lay_of_too_long statementsEmit empty (by rw [bytes, Nat.zero_add]; exact tooLong)
    refine ⟨{ line, cause := .programTooLong }, ?_, rfl⟩
    rw [assemble, programOf, declares]
    change (layoutOf .standard config.operandOrder [] _ >>= link config.operandOrder) = _
    rw [layoutOf, refused]
    rfl

/-- An undefined opcode before an instruction that is cut off, and one byte more than a program
may have. -/
theorem assemble_toSource_of_odd_images :
    (∃ source, toSource .standard .big [0x08, 0x3E] = .ok source ∧
      ∃ program, assemble .standard .big source.toList = .ok program ∧
        program.code = [0x08, 0x3E]) ∧
    (∃ source, toSource .standard .big (List.replicate 65537 0) = .ok source ∧
      ∃ error, assemble .standard .big source.toList = .error (.refused error) ∧
        error.cause.kind = .dataOutOfRange) := by
  obtain ⟨short, shortWritten, assembled, _⟩ := assemble_toSource .standard [0x08, 0x3E]
  obtain ⟨long, longWritten, _, refused⟩ := assemble_toSource .standard (List.replicate 65537 0)
  refine ⟨⟨short, shortWritten, assembled (by decide)⟩, ⟨long, longWritten, refused ?_⟩⟩
  rw [List.length_replicate]
  decide

end Intel8085.Disassembly
