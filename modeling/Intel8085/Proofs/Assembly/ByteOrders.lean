import Intel8085.Proofs.Assembly.Outlines
import Intel8085.Proofs.Disassembly.Decoding

/-!
# Programs in both byte orders

A source text that assembles in one byte order assembles in the other.  The two programs differ only
in the instructions of three bytes, where the two operand bytes have changed places
(`assemble_inBothOrders`).
-/

set_option autoImplicit false

namespace Intel8085.Assembly

open Intel8085.Text Intel8085.Source Intel8085.Disassembly

/-- The bytes of a statement in the other byte order. -/
def exchanged (instruction : Instruction) : List UInt8 → List UInt8
  | [opcode, first, second] =>
      if instruction.mnemonic = dataDirective then [opcode, first, second]
      else [opcode, second, first]
  | bytes => bytes

/-- The code of a program, cut at its blocks. -/
def Program.pieces (program : Program) : List (List UInt8) :=
  program.blocks.map fun placed => (program.code.drop placed.address).take placed.block.size

/-- The programs that a source text gives in both orders: all that a listing shows is equal except
the bytes, and the bytes of one are those of the other, exchanged statement by statement. -/
structure IsExchange (source : List Char) (big little : Program) : Prop where
  labels : big.labels = little.labels
  length : big.code.length = little.code.length
  listing : big.listing.map ListingRecord.unfilled = little.listing.map ListingRecord.unfilled
  blocks : List.Forall₂ (fun statement placed =>
      placed.block.line = statement.1 ∧ placed.block.text = instructionText statement.2)
    (emitting (statements source)) big.blocks
  instructions : List.Forall₂ (fun statement piece => statement.2.mnemonic ≠ dataDirective →
      ∃ opcode form operands, OpcodeTable.standard.form? opcode = some form ∧
        operands.length = form.width ∧ piece = opcode :: operands)
    (emitting (statements source)) big.pieces
  whole : big.code = big.pieces.flatten
  code : little.code =
    (List.zipWith (fun statement piece => exchanged statement.2 piece)
      (emitting (statements source)) big.pieces).flatten

/-! ## Statements -/

/-- The operand bytes of an instruction once labels have addresses. -/
def operandBytes (order : ByteOrder) (labels : List (String × Nat)) (width : Nat) :
    Option Value → List UInt8
  | none => []
  | some value => immediateBytes order width (value.resolve labels)

/-- An immediate has a value exactly when there is room for it, in one byte or two. -/
def HasRoomFor (width : Nat) (value : Option Value) : Prop :=
  width = 0 ∧ value = none ∨ (width = 1 ∨ width = 2) ∧ ∃ number, value = some number

theorem length_operandBytes {order : ByteOrder} {labels : List (String × Nat)} {width : Nat}
    {value : Option Value} (hasRoom : HasRoomFor width value) :
    (operandBytes order labels width value).length = width := by
  rcases hasRoom with ⟨rfl, rfl⟩ | ⟨proper, number, rfl⟩
  · rfl
  · exact length_immediateBytes proper

theorem exchanged_code {instruction : Instruction} (noData : instruction.mnemonic ≠ dataDirective)
    {width : Nat} {value : Option Value} (hasRoom : HasRoomFor width value)
    (labels : List (String × Nat)) (opcode : UInt8) :
    exchanged instruction (opcode :: operandBytes .big labels width value) =
      opcode :: operandBytes .little labels width value := by
  rcases hasRoom with ⟨rfl, rfl⟩ | ⟨rfl | rfl, number, rfl⟩
  · rfl
  · rfl
  · exact if_neg noData

theorem exchanged_data {instruction : Instruction} (isData : instruction.mnemonic = dataDirective)
    (bytes : List UInt8) : exchanged instruction bytes = bytes := by
  unfold exchanged
  split
  · exact if_pos isData
  · rfl

section Statements

variable {order : ByteOrder} {declared : Declarations} {labels : List (String × Nat)}
  {line before : Nat} {label : String} {instruction : Instruction} {block : Block}

/-- The linked block of an instruction depends on the order in its operand bytes only. -/
theorem linked_instructionBlock
    (emitted : instructionBlock .standard order declared line before label instruction = .ok block)
    (resolvable : ∀ reference ∈ block.references, Resolvable labels reference) :
    ∃ opcode form value, formFor .standard declared line instruction = .ok (opcode, form, value) ∧
      HasRoomFor form.width value ∧ block.size = form.length ∧
      block.linked order labels = opcode :: operandBytes order labels form.width value := by
  obtain ⟨opcode, form, value, immediate, found, _, filled, rfl⟩ :=
    instructionBlock_eq_ok_iff.1 emitted
  refine ⟨opcode, form, value, found, ?_⟩
  rcases immediate_of_formFor found with ⟨noWidth, rfl, _⟩ | ⟨proper, _, number, _, _, rfl⟩
  · rw [immediateOf, if_pos noWidth] at filled
    cases filled
    exact ⟨Or.inl ⟨noWidth, rfl⟩, rfl, rfl⟩
  · exact ⟨Or.inr ⟨proper, number, rfl⟩, rfl, (linked_codeBlock proper filled resolvable).2⟩

/-- What a data directive leaves does not depend on the order. -/
theorem linked_dataBlock (order : ByteOrder) (labels : List (String × Nat))
    (emitted : dataBlock declared line before label instruction = .ok block) :
    ∃ values, instruction.operands.mapM (dataValue declared line) = .ok values ∧
      block.linked order labels = values.map (Value.resolvedByte labels) := by
  obtain ⟨_, _, _, values, read, rfl⟩ := dataBlock_eq_ok_iff.1 emitted
  exact ⟨values, mapM_eq_ok_iff.2 read, linked_dataBlockOf order labels line label instruction values⟩

theorem length_linked_blockOf
    (emitted : blockOf .standard order declared line before label instruction = .ok block)
    (resolvable : ∀ reference ∈ block.references, Resolvable labels reference) :
    (block.linked order labels).length = block.size := by
  rw [blockOf] at emitted
  split at emitted
  · obtain ⟨_, _, _, values, _, rfl⟩ := dataBlock_eq_ok_iff.1 emitted
    rw [linked_dataBlockOf, List.length_map]
    rfl
  · obtain ⟨_, form, _, _, hasRoom, size, linked⟩ := linked_instructionBlock emitted resolvable
    rw [linked, size, List.length_cons, length_operandBytes hasRoom]
    exact Nat.add_comm form.width 1

/-- Linked, an instruction is its opcode with as many bytes behind it as its form has room for. -/
theorem linked_of_no_data
    (emitted : blockOf .standard order declared line before label instruction = .ok block)
    (noData : instruction.mnemonic ≠ dataDirective)
    (resolvable : ∀ reference ∈ block.references, Resolvable labels reference) :
    ∃ opcode form operands, OpcodeTable.standard.form? opcode = some form ∧
      operands.length = form.width ∧ block.linked order labels = opcode :: operands := by
  rw [blockOf_of_no_data noData] at emitted
  obtain ⟨opcode, form, value, looked, hasRoom, _, linked⟩ :=
    linked_instructionBlock emitted resolvable
  obtain ⟨found, _⟩ := formFor_standard_eq_ok_iff.1 looked
  exact ⟨opcode, form, _, found, length_operandBytes hasRoom, linked⟩

end Statements

/-- The blocks of one statement in both orders. -/
theorem linked_exchanged {declared : Declarations} {labels : List (String × Nat)}
    {statement : Nat × Instruction} {before otherBefore : Nat} {label otherLabel : String}
    {block other : Block}
    (big : blockOf .standard .big declared statement.1 before label statement.2 = .ok block)
    (little : blockOf .standard .little declared statement.1 otherBefore otherLabel statement.2 =
      .ok other)
    (bigResolvable : ∀ reference ∈ block.references, Resolvable labels reference)
    (littleResolvable : ∀ reference ∈ other.references, Resolvable labels reference) :
    other.linked .little labels = exchanged statement.2 (block.linked .big labels) := by
  by_cases isData : statement.2.mnemonic = dataDirective
  · rw [blockOf_of_data isData] at big little
    obtain ⟨values, read, linked⟩ := linked_dataBlock .big labels big
    obtain ⟨otherValues, otherRead, otherLinked⟩ := linked_dataBlock .little labels little
    cases Except.ok.inj (read.symm.trans otherRead)
    rw [exchanged_data isData, linked, otherLinked]
  · rw [blockOf_of_no_data isData] at big little
    obtain ⟨opcode, form, value, found, hasRoom, _, linked⟩ :=
      linked_instructionBlock big bigResolvable
    obtain ⟨_, _, _, otherFound, _, _, otherLinked⟩ :=
      linked_instructionBlock little littleResolvable
    cases Except.ok.inj (found.symm.trans otherFound)
    rw [linked, otherLinked, exchanged_code isData hasRoom]

/-! ## Programs -/

theorem map_linked_exchanged {declared : Declarations} {labels : List (String × Nat)}
    {statements : List (Nat × Instruction)} {blocks others : List Block}
    (big : List.Forall₂ (fun statement block => ∃ before label,
      blockOf .standard .big declared statement.1 before label statement.2 = .ok block)
      statements blocks)
    (little : List.Forall₂ (fun statement block => ∃ before label,
      blockOf .standard .little declared statement.1 before label statement.2 = .ok block)
      statements others)
    (bigResolvable : ∀ block ∈ blocks, ∀ reference ∈ block.references, Resolvable labels reference)
    (littleResolvable : ∀ block ∈ others, ∀ reference ∈ block.references,
      Resolvable labels reference) :
    others.map (Block.linked .little labels) =
      List.zipWith (fun statement piece => exchanged statement.2 piece) statements
        (blocks.map (Block.linked .big labels)) := by
  induction big generalizing others with
  | nil =>
      cases little
      rfl
  | @cons statement block laterStatements laterBlocks emitted _ inductionHypothesis =>
      obtain ⟨other, laterOthers, otherEmitted, laterEmitted, rfl⟩ :=
        List.forall₂_cons_left_iff.1 little
      obtain ⟨resolvable, laterResolvable⟩ := List.forall_mem_cons.1 bigResolvable
      obtain ⟨otherResolvable, laterOtherResolvable⟩ := List.forall_mem_cons.1 littleResolvable
      obtain ⟨before, label, isBlock⟩ := emitted
      obtain ⟨otherBefore, otherLabel, isOther⟩ := otherEmitted
      rw [List.map_cons, List.map_cons, List.zipWith_cons_cons,
        inductionHypothesis laterEmitted laterResolvable laterOtherResolvable,
        linked_exchanged isBlock isOther resolvable otherResolvable]

/-- Cut at its blocks a program is the linked blocks. -/
theorem pieces_eq {order : ByteOrder} {declared : Declarations} {program : Program}
    {blocks : List Block} (linked : IsLinked order declared program blocks)
    (complete : ∀ block ∈ blocks, (block.linked order program.labels).length = block.size) :
    program.pieces = blocks.map (Block.linked order program.labels) := by
  have onePiece : ∀ position ∈ placed 0 blocks,
      (program.code.drop position.address).take position.block.size =
        position.block.linked order program.labels := by
    intro position member
    obtain ⟨back, dropped⟩ := exists_drop_of_isLinked linked member
    rw [dropped, ← complete position.block (mem_of_mem_placed member), List.take_left]
  calc program.pieces
      = (placed 0 blocks).map fun position => position.block.linked order program.labels := by
        rw [Program.pieces, linked.sameBlocks]
        exact List.map_congr_left onePiece
    _ = ((placed 0 blocks).map PlacedBlock.block).map (Block.linked order program.labels) := by
        rw [List.map_map]
        rfl
    _ = blocks.map (Block.linked order program.labels) := by rw [map_block_placed]

theorem isExchange_of_assemble {source : List Char} {big little : Program}
    (assemblesBig : assemble .standard .big source = .ok big)
    (assemblesLittle : assemble .standard .little source = .ok little)
    (same : big.SameOutline little) : IsExchange source big little := by
  obtain ⟨declared, blocks, declares, lays, resolvable, sameBlocks, sameCode, listed⟩ :=
    assemble_standard_eq_ok_iff.1 assemblesBig
  obtain ⟨otherDeclared, others, otherDeclares, otherLays, otherResolvable, _, otherCode, _⟩ :=
    assemble_standard_eq_ok_iff.1 assemblesLittle
  cases Except.ok.inj (declares.symm.trans otherDeclares)
  -- equal declarations and addresses: from here on the orders differ in the operand bytes alone
  rw [← same.labels] at otherResolvable otherCode
  have emitted := forall₂_emitting_of_lays lays
  have otherEmitted := forall₂_emitting_of_lays otherLays
  have sound : ∀ block ∈ blocks, block.IsSound := by
    intro block member
    obtain ⟨_, _, _, _, isBlock⟩ := block_mem_of_lays lays member
    exact isSound_blockOf isBlock
  have complete : ∀ block ∈ blocks, (block.linked .big big.labels).length = block.size := by
    intro block member
    obtain ⟨_, _, _, _, isBlock⟩ := block_mem_of_lays lays member
    exact length_linked_blockOf isBlock (resolvable block member)
  have linked : IsLinked .big declared big blocks :=
    ⟨sound, resolvable, isSome_lookup_of_lays declares lays, sameBlocks, sameCode, listed⟩
  have pieces := pieces_eq linked complete
  constructor
  case labels => exact same.labels
  case length => exact same.length
  case listing => exact same.listing
  case blocks =>
    rw [← map_block_placed 0 blocks, List.forall₂_map_right_iff, ← sameBlocks] at emitted
    apply forall₂_of_mem emitted
    rintro statement _ position _ ⟨before, label, isBlock⟩
    exact line_and_text_of_blockOf isBlock
  case instructions =>
    rw [pieces, List.forall₂_map_right_iff]
    apply forall₂_of_mem emitted
    rintro statement _ block member ⟨before, label, isBlock⟩ noData
    exact linked_of_no_data isBlock noData (resolvable block member)
  case whole => rw [pieces, sameCode, List.flatMap_def]
  case code =>
    rw [pieces, otherCode, List.flatMap_def,
      map_linked_exchanged emitted otherEmitted resolvable otherResolvable]

/-- Both orders give one failure, or programs that are the same up to the order of operand bytes. -/
theorem assemble_inBothOrders (source : List Char) :
    Agree (IsExchange source) (assemble .standard .big source)
      (assemble .standard .little source) := by
  have agree := agree_assemble .standard .big .little source
  generalize assemblesBig : assemble .standard .big source = big at agree
  generalize assemblesLittle : assemble .standard .little source = little at agree
  cases agree with
  | failure failure => exact .failure failure
  | success same => exact .success (isExchange_of_assemble assemblesBig assemblesLittle same)

/-- A word has its bytes exchanged, and data stays as it is. -/
theorem assemble_inBothOrders_of_word_and_data :
    ∃ big little, assemble .standard .big "LXI B,1234H\nDB 1,2,3".toList = .ok big ∧
      assemble .standard .little "LXI B,1234H\nDB 1,2,3".toList = .ok little ∧
      big.code = [0x01, 0x12, 0x34, 1, 2, 3] ∧ little.code = [0x01, 0x34, 0x12, 1, 2, 3] ∧
      IsExchange "LXI B,1234H\nDB 1,2,3".toList big little := by
  obtain ⟨big, assemblesBig, bigCode⟩ : ∃ big,
      assemble .standard .big "LXI B,1234H\nDB 1,2,3".toList = .ok big ∧
        big.code = [0x01, 0x12, 0x34, 1, 2, 3] := ⟨_, rfl, rfl⟩
  obtain ⟨little, assemblesLittle, littleCode⟩ : ∃ little,
      assemble .standard .little "LXI B,1234H\nDB 1,2,3".toList = .ok little ∧
        little.code = [0x01, 0x34, 0x12, 1, 2, 3] := ⟨_, rfl, rfl⟩
  have agree := assemble_inBothOrders "LXI B,1234H\nDB 1,2,3".toList
  rw [assemblesBig, assemblesLittle] at agree
  cases agree with
  | success exchange =>
      exact ⟨big, little, assemblesBig, assemblesLittle, bigCode, littleCode, exchange⟩

end Intel8085.Assembly
