import Intel8085.Proofs.Assembly.Layout
import Intel8085.Proofs.Assembly.Records
import Intel8085.Proofs.Disassembly.Wording
import Intel8085.Proofs.Source.Numerals

/-!
# Disassembling what was assembled

At the address of an instruction statement disassembly finds the instruction again: its listing
record has the same length and timing, and its operands are those of the statement, where numbers
and labels are written as hexadecimal values.  A data statement has left the values of its operands.
Without data the sweep of a program finds its instructions and nothing else
(`statements_of_disassembly`).
-/

set_option autoImplicit false

namespace Intel8085.Disassembly

open Intel8085.Text Intel8085.Source Intel8085.Assembly

/-! ## What statements mean -/

/-- The statements that emit bytes, each with its line. -/
def emitting (numbered : List NumberedStatement) : List (Nat × Instruction) :=
  numbered.filterMap fun one =>
    one.statement.instruction.map fun instruction => (one.line, instruction)

/-- The value of an operand: the address of the label that it names, or else the positional value of
the numeral that it is. -/
inductive Denotes (labels : List (String × Nat)) (operand : String) : Nat → Prop where
  | label {address : Nat} (defined : labels.lookup operand = some address) :
      Denotes labels operand address
  | number {radix : Radix} {value : Nat} (noLabel : labels.lookup operand = none)
      (isNumeral : IsNumeral radix operand.toList value) : Denotes labels operand value

/-- How disassembly writes the operand of an instruction that has `width` immediate bytes. -/
inductive WrittenAs (labels : List (String × Nat)) (mnemonic : String) (width : Nat)
    (operand : String) : String → Prop where
  | name (names : isRegisterWord operand = true ∨ mnemonic = restartMnemonic) :
      WrittenAs labels mnemonic width operand operand
  | value {value : Nat} (noRegister : isRegisterWord operand = false)
      (noRestart : mnemonic ≠ restartMnemonic) (denotes : Denotes labels operand value)
      (narrow : value < 256 ^ width) :
      WrittenAs labels mnemonic width operand (String.ofList (hexLiteral (2 * width) value))

/-- A data statement has left the values of its operands, in order, at an address. -/
def HoldsValues (program : Program) (instruction : Instruction) (address : Nat)
    (record : ListingRecord) : Prop :=
  record.byteCount = instruction.operands.length ∧
    List.Forall₂ (fun operand (byte : UInt8) => Denotes program.labels operand byte.toNat)
      instruction.operands ((program.code.drop address).take record.byteCount)

/-- Disassembly finds at an address the instruction of a statement, with the length and timing of its
listing record. -/
def FindsInstruction (order : ByteOrder) (program : Program) (instruction : Instruction)
    (address : Nat) (record : ListingRecord) : Prop :=
  ∃ line operands, lineAt .standard order program.code address address = .ok (some line) ∧
    line.raw.length = record.byteCount ∧ line.cycles = record.cycles ∧
    line.states = record.states ∧
    line.text = instructionText { mnemonic := instruction.mnemonic, operands } ∧
    List.Forall₂ (WrittenAs program.labels instruction.mnemonic (record.byteCount - 1))
      instruction.operands operands

/-- The listing record at an address is that of the statement, and the bytes there are those that
the statement asks for. -/
def StandsAt (order : ByteOrder) (program : Program) (statement : Nat × Instruction)
    (address : Nat) : Prop :=
  ∃ record, program.listing[address]? = some record ∧ record.line = statement.1 ∧
    record.address = hexText 4 address ∧ record.text = instructionText statement.2 ∧
    if statement.2.mnemonic = dataDirective then
      HoldsValues program statement.2 address record
    else FindsInstruction order program statement.2 address record

/-! ## Values -/

theorem denotes_of_valueOf {declared : Declarations} {labels : List (String × Nat)}
    (sameNames : ∀ name, (declared.lookup name).isSome = (labels.lookup name).isSome)
    {line : Nat} {operand : String} {value : Value}
    (read : valueOf declared line operand = .ok value) :
    Denotes labels operand (value.resolve labels) := by
  rw [valueOf, sameNames] at read
  cases found : labels.lookup operand with
  | some address =>
      rw [found] at read
      cases read
      have same : Value.resolve labels (.address operand) = address := by
        rw [Value.resolve, addressOf, found]
        rfl
      rw [same]
      exact .label found
  | none =>
      rw [found] at read
      simp only [Option.isSome_none, Bool.false_eq_true, if_false] at read
      split at read
      · rename_i number isNumber
        cases read
        obtain ⟨radix, isNumeral, _⟩ := readLiteral_eq_number_iff.1 isNumber
        exact .number found isNumeral
      · cases read
      · split at read
        · exact absurd read refuse_ne_ok
        · exact absurd read refuse_ne_ok

/-! ## Instruction statements -/

theorem writtenAs_of_operandFits {labels : List (String × Nat)} {opcode : UInt8} {form : Form}
    (found : OpcodeTable.standard.form? opcode = some form) {operand token : String}
    (isOperand : token ∈ form.operands)
    (fits : OperandFits (OpcodeTable.standard.literalOperands form.mnemonic) operand token)
    {value : Nat}
    (means : isLiteral (OpcodeTable.standard.literalOperands form.mnemonic) operand = false →
      Denotes labels operand value ∧ value < 256 ^ form.width) :
    WrittenAs labels form.mnemonic form.width operand (operandText value token) := by
  have regular := Form.isRegular_of_standard found
  cases fits with
  | literal spelled noPlaceholder =>
      rw [operandText_of_literal value noPlaceholder]
      rw [isLiteral, Bool.or_eq_true, List.contains_iff_mem] at spelled
      rcases spelled with register | listed
      · exact .name (Or.inl register)
      · exact .name ((OpcodeTable.isRegisterWord_or_restart
          (Form.isPlainToken_mnemonic regular) listed).imp_right And.left)
  | immediate free placeholder =>
      obtain ⟨denotes, narrow⟩ := means free
      rw [operandText_of_placeholder regular isOperand placeholder]
      rw [isLiteral, Bool.or_eq_false_iff] at free
      refine .value free.1 ?_ denotes narrow
      intro restarts
      rw [Form.isPlaceholder_of_restart regular restarts isOperand] at placeholder
      exact absurd placeholder (by decide)

/-- The linked block is an instruction of the standard table with all of its bytes, and its line has
the operands of the statement. -/
structure DecodesTo (order : ByteOrder) (labels : List (String × Nat)) (instruction : Instruction)
    (block : Block) (opcode : UInt8) (form : Form) (bytes : List UInt8) : Prop where
  found : OpcodeTable.standard.form? opcode = some form
  complete : bytes.length = form.width
  linked : block.linked order labels = opcode :: bytes
  size : block.size = form.length
  cycles : block.cycles = form.cycles
  states : block.states = form.states
  mnemonic : form.mnemonic = instruction.mnemonic
  written : List.Forall₂ (WrittenAs labels form.mnemonic form.width) instruction.operands
    (codeInstruction form (order.joinWord bytes).toNat).operands

theorem exists_decodesTo {order : ByteOrder} {declared : Declarations}
    {labels : List (String × Nat)}
    (sameNames : ∀ name, (declared.lookup name).isSome = (labels.lookup name).isSome)
    {line before : Nat} {label : String} {instruction : Instruction} {block : Block}
    (emitted : instructionBlock .standard order declared line before label instruction = .ok block)
    (resolvable : ∀ reference ∈ block.references, Resolvable labels reference) :
    ∃ opcode form bytes, DecodesTo order labels instruction block opcode form bytes := by
  obtain ⟨opcode, form, value, immediate, looked, _, filled, rfl⟩ :=
    instructionBlock_eq_ok_iff.1 emitted
  obtain ⟨found, named, fits, _⟩ := formFor_standard_eq_ok_iff.1 looked
  rw [← named] at fits
  have written : ∀ number,
      (∀ operand ∈ immediateOperands (OpcodeTable.standard.literalOperands instruction.mnemonic)
        instruction.operands, Denotes labels operand number ∧ number < 256 ^ form.width) →
      List.Forall₂ (WrittenAs labels form.mnemonic form.width) instruction.operands
        (codeInstruction form number).operands := by
    intro number means
    rw [codeInstruction, List.forall₂_map_right_iff]
    apply forall₂_of_mem fits
    intro operand inStatement token inForm fitsToken
    apply writtenAs_of_operandFits found inForm fitsToken
    intro free
    apply means operand
    rw [← named]
    exact List.mem_filter.2 ⟨inStatement, by rw [free]; rfl⟩
  rcases immediate_of_formFor looked with ⟨width, rfl, bare⟩ | ⟨proper, operand, number, only,
    read, rfl⟩
  · rw [immediateOf, if_pos width] at filled
    cases filled
    refine ⟨opcode, form, [], found, width.symm, rfl, rfl, rfl, rfl, named, written _ ?_⟩
    rw [bare]
    exact fun operand member => absurd member List.not_mem_nil
  · obtain ⟨narrow, linked⟩ : number.resolve labels < 256 ^ form.width ∧
        (codeBlock line label instruction opcode form immediate).linked order labels =
          opcode :: immediateBytes order form.width (number.resolve labels) :=
      linked_codeBlock proper filled resolvable
    refine ⟨opcode, form, immediateBytes order form.width (number.resolve labels), found,
      length_immediateBytes proper, linked, rfl, rfl, rfl, named, written _ ?_⟩
    rw [joinWord_immediateBytes proper narrow, only, List.forall_mem_singleton]
    exact ⟨denotes_of_valueOf sameNames read, narrow⟩

theorem lineAt_of_drop {order : ByteOrder} {opcode : UInt8} {form : Form} {bytes : List UInt8}
    (found : OpcodeTable.standard.form? opcode = some form) (complete : bytes.length = form.width)
    {image back : List UInt8} {address : Nat}
    (dropped : image.drop address = opcode :: bytes ++ back) :
    lineAt .standard order image address address =
      .ok (some (codeLine order form opcode bytes address)) := by
  have inside : ¬ (address : Int) < 0 := by omega
  rw [lineAt, if_neg inside, Int.toNat_natCast, dropped]
  simp only [List.cons_append, frontLine_of_form order found complete]
  rfl

/-! ## Data statements -/

theorem forall₂_denotes_of_dataBlock (order : ByteOrder) {declared : Declarations}
    {labels : List (String × Nat)}
    (sameNames : ∀ name, (declared.lookup name).isSome = (labels.lookup name).isSome)
    {line before : Nat} {label : String} {instruction : Instruction} {block : Block}
    (emitted : dataBlock declared line before label instruction = .ok block)
    (resolvable : ∀ reference ∈ block.references, Resolvable labels reference) :
    List.Forall₂ (fun operand (byte : UInt8) => Denotes labels operand byte.toNat)
      instruction.operands (block.linked order labels) := by
  obtain ⟨_, _, _, values, read, rfl⟩ := dataBlock_eq_ok_iff.1 emitted
  rw [linked_dataBlockOf, List.forall₂_map_right_iff]
  apply forall₂_of_mem read
  intro operand _ value isValue isRead
  have small : value.resolve labels < 256 := resolve_lt_of_dataValue resolvable isValue isRead
  have wholeValue : (value.resolvedByte labels).toNat = value.resolve labels := by
    rw [Value.resolvedByte, UInt8.toNat_ofNat']
    exact Nat.mod_eq_of_lt small
  rw [wholeValue]
  exact denotes_of_valueOf sameNames (dataValue_eq_ok isRead).1

/-! ## Programs -/

theorem forall₂_emitting_of_lays {table : OpcodeTable} {order : ByteOrder} {declared : Declarations}
    {size : Nat} {pending : String} {numbered : List NumberedStatement} {blocks : List Block}
    {labels : List (String × Nat)}
    (lays : Lays table order declared size pending numbered blocks labels) :
    List.Forall₂ (fun statement block => ∃ before label,
        blockOf table order declared statement.1 before label statement.2 = .ok block)
      (emitting numbered) blocks := by
  induction lays with
  | nil => exact .nil
  | bare noInstruction _ inductionHypothesis =>
      rw [emitting, List.filterMap_cons_none (by rw [noInstruction]; rfl)]
      exact inductionHypothesis
  | block hasInstruction emitted _ inductionHypothesis =>
      rw [emitting, List.filterMap_cons_some (by rw [hasInstruction]; rfl)]
      exact .cons ⟨_, _, emitted⟩ inductionHypothesis

/-- The line is the instruction that the linked block at a place is. -/
def IsCodeLine (order : ByteOrder) (labels : List (String × Nat)) (position : PlacedBlock)
    (line : Line) : Prop :=
  ∃ opcode form bytes, OpcodeTable.standard.form? opcode = some form ∧
    bytes.length = form.width ∧ position.block.linked order labels = opcode :: bytes ∧
    line = codeLine order form opcode bytes position.address

/-- Blocks that are instructions one behind the other are swept up as these instructions. -/
theorem exists_swept_of_isCodeLine {order : ByteOrder} {labels : List (String × Nat)}
    {blocks : List Block} {start : Nat} (sound : ∀ block ∈ blocks, block.IsSound)
    (code : ∀ position ∈ placed start blocks, ∃ line, IsCodeLine order labels position line) :
    ∃ lines, Swept .standard order start (blocks.flatMap (Block.linked order labels)) lines ∧
      List.Forall₂ (IsCodeLine order labels) (placed start blocks) lines := by
  induction blocks generalizing start with
  | nil => exact ⟨[], .nil, .nil⟩
  | cons block rest inductionHypothesis =>
      obtain ⟨firstSound, restSound⟩ := List.forall_mem_cons.1 sound
      obtain ⟨firstCode, restCode⟩ := List.forall_mem_cons.1 code
      obtain ⟨line, opcode, form, bytes, found, complete, linked, rfl⟩ := firstCode
      obtain ⟨lines, swept, restLines⟩ := inductionHypothesis restSound restCode
      refine ⟨_ :: lines, ?_, .cons ⟨opcode, form, bytes, found, complete, linked, rfl⟩ restLines⟩
      have sameLength : ((codeLine order form opcode bytes start).raw.length : Int) =
          (block.bytes.length : Int) := by
        rw [← Block.length_linked order labels firstSound, linked]
        rfl
      rw [List.flatMap_cons, linked]
      apply Swept.cons (frontLine_of_form order found complete _ start) rfl (List.cons_ne_nil _ _)
      rw [sameLength, ← Int.natCast_add]
      exact swept

/-- A program, its statements laid out as blocks that can be linked. -/
structure IsLinked (order : ByteOrder) (declared : Declarations) (program : Program)
    (blocks : List Block) : Prop where
  sound : ∀ block ∈ blocks, block.IsSound
  resolvable : ∀ block ∈ blocks, ∀ reference ∈ block.references,
    Resolvable program.labels reference
  sameNames : ∀ name, (declared.lookup name).isSome = (program.labels.lookup name).isSome
  sameBlocks : program.blocks = placed 0 blocks
  sameCode : program.code = blocks.flatMap (Block.linked order program.labels)
  listed : program.listing = listingOf blocks program.code

section IsLinked

variable {order : ByteOrder} {declared : Declarations} {program : Program} {blocks : List Block}
  (linked : IsLinked order declared program blocks)
include linked

theorem exists_drop_of_isLinked {position : PlacedBlock} (member : position ∈ placed 0 blocks) :
    ∃ back, program.code.drop position.address =
      position.block.linked order program.labels ++ back := by
  rw [linked.sameCode]
  exact exists_drop_linked linked.sound member

theorem exists_decodesTo_of_blockOf {statement : Nat × Instruction} {before : Nat} {label : String}
    {position : PlacedBlock} (member : position ∈ placed 0 blocks)
    (noData : statement.2.mnemonic ≠ dataDirective)
    (emitted : blockOf .standard order declared statement.1 before label statement.2 =
      .ok position.block) :
    ∃ opcode form bytes,
      DecodesTo order program.labels statement.2 position.block opcode form bytes := by
  rw [blockOf_of_no_data noData] at emitted
  exact exists_decodesTo linked.sameNames emitted
    (linked.resolvable position.block (mem_of_mem_placed member))

theorem findsInstruction_of_decodesTo {instruction : Instruction} {position : PlacedBlock}
    {opcode : UInt8} {form : Form} {bytes : List UInt8} (member : position ∈ placed 0 blocks)
    (decodes : DecodesTo order program.labels instruction position.block opcode form bytes) :
    FindsInstruction order program instruction position.address (position.heading opcode) := by
  obtain ⟨back, dropped⟩ := exists_drop_of_isLinked linked member
  rw [decodes.linked] at dropped
  have sameWidth : (position.heading opcode).byteCount - 1 = form.width := by
    change position.block.size - 1 = form.width
    rw [decodes.size, Form.length, Nat.add_sub_cancel_left]
  refine ⟨codeLine order form opcode bytes position.address,
    (codeInstruction form (order.joinWord bytes).toNat).operands,
    lineAt_of_drop decodes.found decodes.complete dropped, ?_, decodes.cycles.symm,
    decodes.states.symm, ?_, ?_⟩
  · change (opcode :: bytes).length = position.block.size
    rw [decodes.size, List.length_cons, decodes.complete, Form.length, Nat.add_comm]
  · rw [text_codeLine, codeInstruction, decodes.mnemonic]
  · rw [sameWidth, ← decodes.mnemonic]
    exact decodes.written

theorem standsAt_of_blockOf {statement : Nat × Instruction} {before : Nat} {label : String}
    {position : PlacedBlock} (member : position ∈ placed 0 blocks)
    (emitted : blockOf .standard order declared statement.1 before label statement.2 =
      .ok position.block) :
    StandsAt order program statement position.address := by
  obtain ⟨sameLine, sameText⟩ := line_and_text_of_blockOf emitted
  by_cases isData : statement.2.mnemonic = dataDirective
  · rw [blockOf_of_data isData] at emitted
    have denotes := forall₂_denotes_of_dataBlock order linked.sameNames emitted
      (linked.resolvable position.block (mem_of_mem_placed member))
    obtain ⟨listed, _, _, values, read, isBlock⟩ := dataBlock_eq_ok_iff.1 emitted
    have sameSize : position.block.size = statement.2.operands.length := by
      rw [isBlock, read.length_eq]
      rfl
    obtain ⟨first, others, isOperands⟩ := List.exists_cons_of_ne_nil listed
    obtain ⟨byte, bytes, _, _, isBytes⟩ :=
      List.forall₂_cons_left_iff.1 (isOperands ▸ denotes)
    obtain ⟨back, dropped⟩ := exists_drop_of_isLinked linked member
    refine ⟨position.heading byte, getElem?_listing linked.sound linked.sameCode linked.listed
      member isBytes, sameLine, rfl, sameText, ?_⟩
    rw [if_pos isData]
    refine ⟨sameSize, ?_⟩
    have taken : (program.code.drop position.address).take (position.heading byte).byteCount =
        position.block.linked order program.labels := by
      change (program.code.drop position.address).take position.block.size = _
      rw [dropped, sameSize, denotes.length_eq, List.take_left]
    rw [taken]
    exact denotes
  · obtain ⟨opcode, form, bytes, decodes⟩ :=
      exists_decodesTo_of_blockOf linked member isData emitted
    refine ⟨position.heading opcode, getElem?_listing linked.sound
      linked.sameCode linked.listed member decodes.linked, sameLine, rfl, sameText, ?_⟩
    rw [if_neg isData]
    exact findsInstruction_of_decodesTo linked member decodes

end IsLinked

theorem exists_lays_of_assemble {order : ByteOrder} {source : List Char} {program : Program}
    (assembles : assemble .standard order source = .ok program) :
    ∃ declared blocks, IsLinked order declared program blocks ∧
      Lays .standard order declared 0 "" (statements source) blocks program.labels := by
  obtain ⟨declared, blocks, declares, lays, resolvable, sameBlocks, sameCode, listed⟩ :=
    assemble_standard_eq_ok_iff.1 assembles
  refine ⟨declared, blocks, ⟨?_, resolvable, isSome_lookup_of_lays declares lays, sameBlocks,
    sameCode, listed⟩, lays⟩
  intro block member
  obtain ⟨_, _, _, _, emitted⟩ := block_mem_of_lays lays member
  exact isSound_blockOf emitted

theorem exists_isLinked {order : ByteOrder} {source : List Char} {program : Program}
    (assembles : assemble .standard order source = .ok program) :
    ∃ declared blocks, IsLinked order declared program blocks ∧
      List.Forall₂ (fun statement block => ∃ before label,
          blockOf .standard order declared statement.1 before label statement.2 = .ok block)
        (emitting (statements source)) blocks := by
  obtain ⟨declared, blocks, linked, lays⟩ := exists_lays_of_assemble assembles
  exact ⟨declared, blocks, linked, forall₂_emitting_of_lays lays⟩

/-- Every statement of a program that assembles is found again at its address, and without data
the sweep of the program gives its instructions at their addresses. -/
theorem statements_of_disassembly (config : Config) (source : List Char) {program : Program}
    (assembles : assemble .standard config.operandOrder source = .ok program) :
    List.Forall₂ (fun statement position =>
        StandsAt config.operandOrder program statement position.address)
      (emitting (statements source)) program.blocks ∧
    ((∀ statement ∈ emitting (statements source), statement.2.mnemonic ≠ dataDirective) →
      ∃ lines, sweep .standard config.operandOrder 0 0 program.code = .ok lines ∧
        List.Forall₂ (fun position line => line.address = position.address ∧
            lineAt .standard config.operandOrder program.code position.address position.address =
              .ok (some line))
          program.blocks lines) := by
  obtain ⟨declared, blocks, linked, emitted⟩ := exists_isLinked assembles
  rw [← map_block_placed 0 blocks, List.forall₂_map_right_iff] at emitted
  rw [linked.sameBlocks]
  constructor
  · apply forall₂_of_mem emitted
    rintro statement _ position member ⟨before, label, isBlock⟩
    exact standsAt_of_blockOf linked member isBlock
  · intro noData
    have code : ∀ position ∈ placed 0 blocks,
        ∃ line, IsCodeLine config.operandOrder program.labels position line := by
      intro position member
      obtain ⟨statement, inSource, before, label, isBlock⟩ := exists_of_mem_right emitted member
      obtain ⟨opcode, form, bytes, decodes⟩ :=
        exists_decodesTo_of_blockOf linked member (noData statement inSource) isBlock
      exact ⟨_, opcode, form, bytes, decodes.found, decodes.complete, decodes.linked, rfl⟩
    obtain ⟨lines, swept, areCode⟩ := exists_swept_of_isCodeLine linked.sound code
    refine ⟨lines, ?_, ?_⟩
    · rw [linked.sameCode]
      exact sweep_of_swept swept
    · apply forall₂_of_mem areCode
      rintro position member line _ ⟨opcode, form, bytes, found, complete, isLinked, rfl⟩
      obtain ⟨back, dropped⟩ := exists_drop_of_isLinked linked member
      rw [isLinked] at dropped
      exact ⟨rfl, lineAt_of_drop found complete dropped⟩

theorem statements_of_disassembly_of_loop :
    ∃ program, assemble .standard .big "LOOP: MVI A,0FFH\nJMP LOOP".toList = .ok program ∧
      program.code = [0x3E, 0xFF, 0xC3, 0x00, 0x00] ∧
      List.Forall₂ (fun statement position => StandsAt .big program statement position.address)
        (emitting (statements "LOOP: MVI A,0FFH\nJMP LOOP".toList)) program.blocks ∧
      ∃ lines, sweep .standard .big 0 0 program.code = .ok lines ∧
        List.Forall₂ (fun position line => line.address = position.address ∧
            lineAt .standard .big program.code position.address position.address =
              .ok (some line))
          program.blocks lines := by
  obtain ⟨program, assembles, code⟩ :
      ∃ program, assemble .standard .big "LOOP: MVI A,0FFH\nJMP LOOP".toList = .ok program ∧
        program.code = [0x3E, 0xFF, 0xC3, 0x00, 0x00] := ⟨_, rfl, rfl⟩
  have noData : ∀ statement ∈ emitting (statements "LOOP: MVI A,0FFH\nJMP LOOP".toList),
      statement.2.mnemonic ≠ dataDirective := by decide +kernel
  obtain ⟨stand, swept⟩ := statements_of_disassembly .standard _ assembles
  exact ⟨program, assembles, code, stand, swept noData⟩

end Intel8085.Disassembly
