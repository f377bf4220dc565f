import Intel8085.Proofs.Disassembly.Decoding

/-!
# Lengths of statements

With any table an instruction is listed with the length of its form, and emits as many bytes, and
putting in the address of a label changes operand bytes of the statement that names the label and no
others (`lengths_of_assemble`).

There are two exceptions, in tables that the instruction set does not need.  A number never leaves
more than two bytes, so it falls short of a form with more than two immediate bytes.  And a pattern
may spell out the token that stands for an immediate: a label in its place has no byte to go to, yet
two bytes are written for it, over whatever comes behind the statement.
-/

set_option autoImplicit false

namespace Intel8085.Assembly

open Intel8085.Text Intel8085.Source Intel8085.Disassembly

/-! ## What addresses are written over -/

/-- The bytes after are those before, except at some addresses. -/
structure ChangesOnly (written : Nat → Prop) (before after : Array UInt8) : Prop where
  size : after.size = before.size
  elsewhere : ∀ index, ¬ written index → after[index]? = before[index]?

/-- A reference has the address of its label written over one byte or two. -/
structure PlacedBlock.Writes (position : PlacedBlock) (reference : Reference) (index : Nat) :
    Prop where
  first : position.address + reference.position ≤ index
  last : index < position.address + reference.position + if reference.width = 1 then 1 else 2

/-- Some reference of some block has a label written over the byte at an address. -/
def AnyWrites (blocks : List PlacedBlock) (index : Nat) : Prop :=
  ∃ position ∈ blocks, ∃ reference ∈ position.block.references, position.Writes reference index

namespace ChangesOnly

variable {written other : Nat → Prop} {before middle after : Array UInt8}

theorem refl (written : Nat → Prop) (code : Array UInt8) : ChangesOnly written code code :=
  ⟨rfl, fun _ _ => rfl⟩

theorem trans (first : ChangesOnly written before middle)
    (second : ChangesOnly written middle after) : ChangesOnly written before after :=
  ⟨second.size.trans first.size, fun index unwritten =>
    (second.elsewhere index unwritten).trans (first.elsewhere index unwritten)⟩

theorem mono (changes : ChangesOnly written before after)
    (wider : ∀ index, written index → other index) : ChangesOnly other before after :=
  ⟨changes.size, fun index unwritten =>
    changes.elsewhere index fun isWritten => unwritten (wider index isWritten)⟩

end ChangesOnly

theorem changesOnly_overwriteCode {bytes : List UInt8} {code patched : Array UInt8} {position : Nat}
    (success : overwriteCode code position bytes = .ok patched) :
    ChangesOnly (fun index => position ≤ index ∧ index < position + bytes.length) code patched := by
  induction bytes generalizing code position with
  | nil =>
      cases success
      exact .refl _ _
  | cons byte rest inductionHypothesis =>
      rw [overwriteCode] at success
      split at success
      · have first : ChangesOnly (fun index => position ≤ index ∧
            index < position + (byte :: rest).length) code (code.setIfInBounds position byte) := by
          refine ⟨Array.size_setIfInBounds, ?_⟩
          intro index unwritten
          have different : position ≠ index := by
            rintro rfl
            exact unwritten ⟨Nat.le_refl _, Nat.lt_add_of_pos_right (Nat.succ_pos _)⟩
          exact Array.getElem?_setIfInBounds_ne different
        refine first.trans ((inductionHypothesis success).mono ?_)
        rintro index ⟨above, below⟩
        rw [List.length_cons]
        omega
      · cases success

section Patches

variable {order : ByteOrder} {labels : List (String × Nat)}

theorem length_of_addressBytes {line : Nat} {reference : Reference} {bytes : List UInt8}
    (found : addressBytes order labels line reference = .ok bytes) :
    bytes.length = if reference.width = 1 then 1 else 2 := by
  rw [(addressBytes_eq_ok_iff.1 found).2, length_immediateBytes_eq]

theorem changesOnly_patchCode {position : PlacedBlock} {reference : Reference}
    {code patched : Array UInt8}
    (success : patchCode order labels position code reference = .ok patched) :
    ChangesOnly (position.Writes reference) code patched := by
  obtain ⟨bytes, found, written⟩ := bind_eq_ok_iff.1 success
  refine (changesOnly_overwriteCode written).mono ?_
  rintro index ⟨above, below⟩
  rw [length_of_addressBytes found] at below
  exact ⟨above, below⟩

/-- Putting in all addresses changes only bytes that some reference has its label written over. -/
theorem changesOnly_foldlM_patchBlockCode {blocks : List PlacedBlock} {code linked : Array UInt8}
    (success : blocks.foldlM (patchBlockCode order labels) code = .ok linked) :
    ChangesOnly (AnyWrites blocks) code linked := by
  refine holds_of_foldlM ?_ success (.refl _ code)
  intro position isBlock before after patched changes
  refine changes.trans (holds_of_foldlM ?_ patched (.refl _ before))
  intro reference isReference first second one firstChanges
  refine firstChanges.trans ((changesOnly_patchCode one).mono ?_)
  intro index writes
  exact ⟨position, isBlock, reference, isReference, writes⟩

end Patches

/-! ## Statements -/

/-- The address is that of a byte of the block behind its first `count` bytes. -/
structure PlacedBlock.HasBehind (position : PlacedBlock) (count index : Nat) : Prop where
  first : position.address + count ≤ index
  last : index < position.address + position.block.bytes.length

/-- A data directive is listed with one byte for each operand and emits so many, and putting in an
address changes no byte of another statement. -/
structure IsMeasuredData (order : ByteOrder) (labels : List (String × Nat)) (operands : List String)
    (position : PlacedBlock) : Prop where
  size : position.block.size = operands.length
  emits : position.block.bytes.length = operands.length
  patches : ∀ reference ∈ position.block.references, ∀ image patched,
    patch order labels position image reference = .ok patched →
      ChangesOnly (position.HasBehind 0) image.code patched.code

/-- An instruction is listed with the length of its form and emits so many bytes, its opcode first,
and putting in an address changes no byte but its own operand bytes. -/
structure IsMeasuredCode (table : OpcodeTable) (order : ByteOrder) (labels : List (String × Nat))
    (position : PlacedBlock) (opcode : UInt8) (form : Form) : Prop where
  found : table.form? opcode = some form
  first : position.block.bytes.head? = some opcode
  size : position.block.size = form.length
  emits : position.block.bytes.length = form.length ∨
    2 < form.width ∧ position.block.bytes.length = 3 ∧ position.block.references = []
  patches : ∀ reference ∈ position.block.references, ∀ image patched,
    patch order labels position image reference = .ok patched →
      ChangesOnly (position.HasBehind 1) image.code patched.code ∨
        form.width = 0 ∧ Token.anyImmediate ∈ form.operands

/-- The first listing record of a statement is that of its block, and the block is measured. -/
structure IsMeasured (table : OpcodeTable) (order : ByteOrder) (program : Program)
    (statement : Nat × Instruction) (position : PlacedBlock) : Prop where
  listed : ∃ record, program.listing[position.address]? = some record ∧
    record.line = statement.1 ∧ record.text = instructionText statement.2 ∧
    record.byteCount = position.block.size
  measured : if statement.2.mnemonic = dataDirective then
      IsMeasuredData order program.labels statement.2.operands position
    else ∃ opcode form, IsMeasuredCode table order program.labels position opcode form

/-- A reference with room within its block has its label written over bytes of the block. -/
theorem PlacedBlock.Writes.hasBehind {position : PlacedBlock} {reference : Reference}
    {count index : Nat} (writes : position.Writes reference index)
    (behind : count ≤ reference.position) (hasRoom : 1 ≤ reference.width)
    (within : reference.position + reference.width ≤ position.block.bytes.length) :
    position.HasBehind count index := by
  obtain ⟨above, below⟩ := writes
  split at below
  · exact ⟨by omega, by omega⟩
  · exact ⟨by omega, by omega⟩

theorem isMeasuredData {order : ByteOrder} {labels : List (String × Nat)}
    {declared : Declarations} {line before : Nat} {label : String} {instruction : Instruction}
    {position : PlacedBlock}
    (emitted : dataBlock declared line before label instruction = .ok position.block) :
    IsMeasuredData order labels instruction.operands position := by
  obtain ⟨_, _, _, values, read, isBlock⟩ := dataBlock_eq_ok_iff.1 emitted
  have emits : position.block.bytes.length = instruction.operands.length := by
    rw [isBlock, read.length_eq]
    exact List.length_map _
  refine ⟨?_, emits, ?_⟩
  · rw [isBlock, read.length_eq]
    rfl
  · intro reference member image patched success
    have sound : position.block.IsSound := by
      rw [isBlock]
      exact isSound_dataBlockOf line label instruction values
    obtain ⟨proper, within⟩ := sound reference member
    refine (changesOnly_patchCode (patchCode_of_patch success)).mono fun index writes => ?_
    exact writes.hasBehind (Nat.zero_le _) (by omega) within

/-- An immediate has as many bytes as its form has room for, or it is a number that has two of them;
only a label leaves a reference. -/
theorem immediateOf_cases {order : ByteOrder} {line width : Nat} {value : Option Value}
    {immediate : Immediate} (filled : immediateOf order line width value = .ok immediate) :
    immediate.references = [] ∧
        (immediate.bytes.length = width ∨ 2 < width ∧ immediate.bytes.length = 2) ∨
      ∃ name, value = some (.address name) ∧ immediate.bytes = List.replicate width 0 ∧
        immediate.references = [{ position := 1, name, width }] := by
  rcases value with _ | number | name
  · rw [immediateOf] at filled
    split at filled
    · rename_i noRoom
      cases filled
      exact Or.inl ⟨rfl, Or.inl noRoom.symm⟩
    · cases filled
  · rw [immediateOf, refuseNumber] at filled
    split at filled
    · rename_i noRoom
      cases filled
      exact Or.inl ⟨rfl, Or.inl noRoom.symm⟩
    · rename_i hasRoom
      split at filled
      · cases filled
        refine Or.inl ⟨rfl, ?_⟩
        have length := length_immediateBytes_eq order width number
        by_cases one : width = 1
        · rw [if_pos one] at length
          exact Or.inl (length.trans one.symm)
        · rw [if_neg one] at length
          by_cases two : width = 2
          · exact Or.inl (length.trans two.symm)
          · exact Or.inr ⟨by omega, length⟩
      · split at filled
        · exact absurd filled refuse_ne_ok
        · cases filled
  · cases filled
    exact Or.inr ⟨name, rfl, rfl, rfl⟩

/-- A form that takes an operand for an immediate but has no room for one spells out the token that
stands for an immediate. -/
theorem anyImmediate_mem_operands {table : OpcodeTable} {declared : Declarations} {line : Nat}
    {instruction : Instruction} {opcode : UInt8} {form : Form} {value : Value}
    (looked : formFor table declared line instruction = .ok (opcode, form, some value))
    (noRoom : form.width = 0) : Token.anyImmediate ∈ form.operands := by
  obtain ⟨_, _, values, read, encoded, found, isLast⟩ := formFor_eq_ok_iff.1 looked
  obtain ⟨operand, isImmediate, _⟩ :=
    exists_of_mem_right (mapM_eq_ok_iff.1 read) (List.mem_of_getLast? isLast)
  obtain ⟨isOperand, free⟩ := List.mem_filter.1 isImmediate
  -- the signatures of the form and of what the form is looked up by are the same
  obtain ⟨other, otherFound, signature⟩ := (OpcodeTable.encode_eq_some_iff _ _ _).1 encoded
  cases Option.some.inj (found.symm.trans otherFound)
  rw [form.signature_eq, signatureOf, signatureOf, List.map_cons, List.map_cons, List.map_cons]
    at signature
  have operands := (List.cons.inj signature).2
  have listed : Token.anyImmediate ∈ form.operands.map Token.collapse := by
    rw [operands, List.map_map, List.map_map]
    refine List.mem_map.2 ⟨operand, isOperand, ?_⟩
    have token : operandToken (table.literalOperands instruction.mnemonic) operand =
        Token.anyImmediate := if_neg (by simpa using free)
    rw [Function.comp_apply, Function.comp_apply, token]
    decide
  obtain ⟨token, inForm, collapses⟩ := List.mem_map.1 listed
  by_cases spelled : token = Token.anyImmediate
  · exact spelled ▸ inForm
  · have placeholder := isPlaceholder_of_collapse collapses spelled
    rw [isPlaceholder_of_width_zero noRoom inForm] at placeholder
    cases placeholder

theorem isMeasuredCode {table : OpcodeTable} {order : ByteOrder} {labels : List (String × Nat)}
    {declared : Declarations} {line before : Nat} {label : String} {instruction : Instruction}
    {position : PlacedBlock}
    (emitted : instructionBlock table order declared line before label instruction =
      .ok position.block) :
    ∃ opcode form, IsMeasuredCode table order labels position opcode form := by
  obtain ⟨opcode, form, value, immediate, looked, _, filled, isBlock⟩ :=
    instructionBlock_eq_ok_iff.1 emitted
  have found : table.form? opcode = some form := by
    obtain ⟨_, _, _, _, _, found, _⟩ := formFor_eq_ok_iff.1 looked
    exact found
  have bytes : position.block.bytes = opcode :: immediate.bytes := congrArg Block.bytes isBlock
  have references : position.block.references = immediate.references :=
    congrArg Block.references isBlock
  refine ⟨opcode, form, found, by rw [bytes]; rfl, congrArg Block.size isBlock, ?_, ?_⟩
  · rw [bytes, references, List.length_cons, Form.length]
    rcases immediateOf_cases filled with ⟨none, complete | short⟩ | ⟨name, _, zeros, _⟩
    · exact Or.inl (by omega)
    · exact Or.inr ⟨short.1, by omega, none⟩
    · rw [zeros, List.length_replicate]
      exact Or.inl (Nat.add_comm form.width 1)
  · rw [references]
    rcases immediateOf_cases filled with ⟨none, _⟩ | ⟨name, rfl, zeros, one⟩
    · rw [none]
      exact fun _ impossible => absurd impossible List.not_mem_nil
    · rw [one, List.forall_mem_singleton]
      intro image patched success
      by_cases noRoom : form.width = 0
      · exact Or.inr ⟨noRoom, anyImmediate_mem_operands looked noRoom⟩
      · have changes := changesOnly_patchCode (patchCode_of_patch success)
        refine Or.inl (changes.mono fun index writes => ?_)
        refine writes.hasBehind (Nat.le_refl 1) (Nat.pos_of_ne_zero noRoom) ?_
        rw [bytes, zeros, List.length_cons, List.length_replicate]
        exact Nat.le_of_eq (Nat.add_comm 1 form.width)

theorem isMeasured_block {table : OpcodeTable} {order : ByteOrder} {labels : List (String × Nat)}
    {declared : Declarations} {statement : Nat × Instruction} {before : Nat} {label : String}
    {position : PlacedBlock}
    (emitted : blockOf table order declared statement.1 before label statement.2 =
      .ok position.block) :
    if statement.2.mnemonic = dataDirective then
      IsMeasuredData order labels statement.2.operands position
    else ∃ opcode form, IsMeasuredCode table order labels position opcode form := by
  by_cases isData : statement.2.mnemonic = dataDirective
  · rw [if_pos isData]
    rw [blockOf_of_data isData] at emitted
    exact isMeasuredData emitted
  · rw [if_neg isData]
    rw [blockOf_of_no_data isData] at emitted
    exact isMeasuredCode emitted

theorem bytes_ne_nil_of_blockOf {table : OpcodeTable} {order : ByteOrder}
    {declared : Declarations} {line before : Nat} {label : String} {instruction : Instruction}
    {block : Block}
    (emitted : blockOf table order declared line before label instruction = .ok block) :
    block.bytes ≠ [] := by
  rw [blockOf] at emitted
  split at emitted
  · obtain ⟨listed, _, _, values, read, rfl⟩ := dataBlock_eq_ok_iff.1 emitted
    intro none
    have noValues : values = [] := List.map_eq_nil_iff.1 none
    rw [noValues] at read
    exact listed (List.forall₂_nil_right_iff.1 read)
  · obtain ⟨_, _, _, _, _, _, _, rfl⟩ := instructionBlock_eq_ok_iff.1 emitted
    exact List.cons_ne_nil _ _

/-! ## Programs -/

/-- A program comes from a layout, into which the addresses are put. -/
theorem exists_layout_of_assemble {table : OpcodeTable} {order : ByteOrder} {source : List Char}
    {program : Program} (assembles : assemble table order source = .ok program) :
    ∃ declared blocks,
      Lays table order declared 0 "" (statements source) blocks program.labels ∧
        program.blocks = placed 0 blocks ∧
        program.listing = listingOf blocks program.code ∧
        (placed 0 blocks).foldlM (patchBlockCode order program.labels)
          (blocks.flatMap Block.bytes).toArray = .ok program.code.toArray := by
  unfold assemble programOf at assembles
  simp only [bind_eq_ok_iff] at assembles
  obtain ⟨declared, declares, layout, laid, linked⟩ := assembles
  obtain ⟨blocks, labels, lays, sameBlocks, sameLabels⟩ := lays_of_foldlM laid
  rw [List.reverse_nil, List.nil_append] at sameBlocks sameLabels
  rw [link_eq] at linked
  simp only [bind_eq_ok_iff, pure_eq_ok_iff] at linked
  obtain ⟨code, patched, rfl⟩ := linked
  have listed : (layout.program code).listing = listingOf blocks code.toList := by
    rw [Layout.program, sameBlocks, map_block_placed]
  have unpatched : (placed 0 blocks).flatMap (fun position => position.block.bytes) =
      blocks.flatMap Block.bytes := by
    rw [← List.flatMap_map PlacedBlock.block Block.bytes, map_block_placed]
  rw [sameBlocks, sameLabels, unpatched] at patched
  have programLabels : (layout.program code).labels = labels := sameLabels
  rw [← programLabels] at lays patched
  exact ⟨declared, blocks, lays, sameBlocks, listed, patched⟩

/-- At the address of a block is the record of its first byte. -/
theorem exists_heading {program : Program} {blocks : List Block}
    (listed : program.listing = listingOf blocks program.code)
    (sameLength : program.code.length = (blocks.flatMap Block.bytes).length)
    {position : PlacedBlock} (member : position ∈ placed 0 blocks)
    (holdsBytes : position.block.bytes ≠ []) :
    ∃ byte, program.listing[position.address]? = some (position.heading byte) := by
  obtain ⟨back, dropped⟩ := @exists_drop_of_mem_placed ListingRecord
    PlacedBlock.records blocks [] position (fun other _ => length_records other) member
  obtain ⟨others, isRecords⟩ := List.head?_eq_some_iff.1 (head?_records holdsBytes)
  rw [isRecords, List.cons_append, List.nil_append, List.length_nil] at dropped
  have isRecord := getElem?_of_drop dropped
  have below : position.address < program.code.length := by
    obtain ⟨inRecords, _⟩ := List.getElem?_eq_some_iff.1 isRecord
    rw [sameLength, ← length_flatMap_records 0]
    exact inRecords
  refine ⟨program.code[position.address], ?_⟩
  rw [listed, listingOf, List.getElem?_zipWith, isRecord, List.getElem?_eq_getElem below]
  rfl

/-- Every statement of a program is measured, the blocks lie one behind the other, and the code is
what they hold, except where addresses are written over it. -/
theorem lengths_of_assemble {table : OpcodeTable} {order : ByteOrder} {source : List Char}
    {program : Program} (assembles : assemble table order source = .ok program) :
    List.Forall₂ (IsMeasured table order program) (emitting (statements source)) program.blocks ∧
      program.blocks = placed 0 (program.blocks.map PlacedBlock.block) ∧
      ChangesOnly (AnyWrites program.blocks)
        (program.blocks.flatMap fun position => position.block.bytes).toArray
        program.code.toArray := by
  obtain ⟨declared, blocks, lays, sameBlocks, listed, linked⟩ := exists_layout_of_assemble assembles
  have unpatched : blocks.flatMap Block.bytes =
      program.blocks.flatMap fun position => position.block.bytes := by
    rw [sameBlocks, ← List.flatMap_map PlacedBlock.block Block.bytes, map_block_placed]
  have changes := changesOnly_foldlM_patchBlockCode linked
  have sameLength : program.code.length = (blocks.flatMap Block.bytes).length := changes.size
  rw [unpatched, ← sameBlocks] at changes
  have emitted := forall₂_emitting_of_lays lays
  rw [← map_block_placed 0 blocks, List.forall₂_map_right_iff, ← sameBlocks] at emitted
  refine ⟨?_, ?_, changes⟩
  · apply forall₂_of_mem emitted
    rintro statement _ position member ⟨before, label, isBlock⟩
    refine ⟨?_, isMeasured_block isBlock⟩
    obtain ⟨byte, isListed⟩ := exists_heading listed sameLength (sameBlocks ▸ member)
      (bytes_ne_nil_of_blockOf isBlock)
    obtain ⟨sameLine, sameText⟩ := line_and_text_of_blockOf isBlock
    exact ⟨_, isListed, sameLine, sameText, rfl⟩
  · rw [sameBlocks, map_block_placed]

/-- A table of two instructions, with a label for a word and another for a byte. -/
theorem lengths_of_assemble_of_small_table :
    ∃ table program,
      OpcodeTable.ofEntries [⟨1, ["JUMP", "D16"], 3, 10⟩, ⟨2, ["STOP"], 1, 4⟩] = .ok table ∧
      assemble table .little "STOP\nLOOP: JUMP LOOP\nDB 5,LOOP".toList = .ok program ∧
      program.code = [2, 1, 1, 0, 5, 1] ∧
      List.Forall₂ (IsMeasured table .little program)
        (emitting (statements "STOP\nLOOP: JUMP LOOP\nDB 5,LOOP".toList)) program.blocks ∧
      program.blocks = placed 0 (program.blocks.map PlacedBlock.block) ∧
      ChangesOnly (AnyWrites program.blocks)
        (program.blocks.flatMap fun position => position.block.bytes).toArray
        program.code.toArray := by
  obtain ⟨table, built, program, assembles, code⟩ : ∃ table,
      OpcodeTable.ofEntries [⟨1, ["JUMP", "D16"], 3, 10⟩, ⟨2, ["STOP"], 1, 4⟩] = .ok table ∧
      ∃ program, assemble table .little "STOP\nLOOP: JUMP LOOP\nDB 5,LOOP".toList = .ok program ∧
        program.code = [2, 1, 1, 0, 5, 1] := ⟨_, rfl, _, rfl, rfl⟩
  exact ⟨table, program, built, assembles, code, lengths_of_assemble assembles⟩

/-- The exceptions are real.  A number leaves three bytes of an instruction that is four bytes long
and is listed with four, and a label without a byte of its own has zeros written over the data of the
next statement. -/
theorem lengths_fall_short_and_overrun :
    (∃ table, OpcodeTable.ofEntries [⟨1, ["FOO", "D8", "D16"], 3, 10⟩] = .ok table ∧
      (table.form? 1).map Form.length = some 4 ∧
      ∃ program, assemble table .big "FOO 0,0".toList = .ok program ∧
        program.code = [1, 0, 0] ∧
        program.listing.map ListingRecord.byteCount = [4, 0, 0]) ∧
    ∃ table, OpcodeTable.ofEntries [⟨1, ["FOO", "DATA"], 1, 4⟩] = .ok table ∧
      (table.form? 1).map Form.length = some 1 ∧
      ∃ program, assemble table .big "X: FOO X\nDB 5,6".toList = .ok program ∧
        program.blocks.map (fun position => position.block.bytes) = [[1], [5, 6]] ∧
        program.code = [1, 0, 0] :=
  ⟨⟨_, rfl, rfl, _, rfl, rfl, rfl⟩, _, rfl, rfl, _, rfl, rfl, rfl⟩

end Intel8085.Assembly
