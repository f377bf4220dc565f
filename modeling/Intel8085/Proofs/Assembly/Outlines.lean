import Intel8085.Proofs.Agreement
import Intel8085.Proofs.Assembly.Layout

/-!
# Programs up to their bytes

The order of the bytes of a word decides which bytes a program has, and nothing else: with any
table, a source text assembled in two orders fails in both with one failure, or gives programs with
equal labels, with blocks and listings that are equal up to the values of bytes, and with as many
bytes (`agree_assemble`).
-/

set_option autoImplicit false

namespace Intel8085.Assembly

open Intel8085.Text Intel8085.Source

/-- The block with its bytes forgotten, except how many there are. -/
def Block.outline (block : Block) : Block :=
  { block with bytes := List.replicate block.bytes.length 0 }

def PlacedBlock.outline (placed : PlacedBlock) : PlacedBlock :=
  { placed with block := placed.block.outline }

/-- The record without the byte that it shows. -/
def ListingRecord.unfilled (record : ListingRecord) : ListingRecord :=
  { record with hexCode := "" }

structure Immediate.SameOutline (one other : Immediate) : Prop where
  length : one.bytes.length = other.bytes.length
  references : one.references = other.references

structure Layout.SameOutline (one other : Layout) : Prop where
  size : one.size = other.size
  pending : one.pending = other.pending
  blocks : one.blocks.map PlacedBlock.outline = other.blocks.map PlacedBlock.outline
  labels : one.labels = other.labels

structure Program.SameOutline (one other : Program) : Prop where
  length : one.code.length = other.code.length
  listing : one.listing.map ListingRecord.unfilled = other.listing.map ListingRecord.unfilled
  blocks : one.blocks.map PlacedBlock.outline = other.blocks.map PlacedBlock.outline
  labels : one.labels = other.labels

/-! ## Blocks -/

theorem agree_immediateOf (first second : ByteOrder) (line width : Nat) (value : Option Value) :
    Agree Immediate.SameOutline (immediateOf first line width value)
      (immediateOf second line width value) := by
  have same : ∀ immediate : Immediate, immediate.SameOutline immediate := fun _ => ⟨rfl, rfl⟩
  rcases value with _ | number | name
  · exact .self same _
  · rw [immediateOf, immediateOf]
    split
    · exact .self same _
    · split
      · refine .success ⟨?_, rfl⟩
        simp only [length_immediateBytes_eq]
      · exact .self same _
  · exact .self same _

section Orders

variable (table : OpcodeTable) (first second : ByteOrder) (declared : Declarations)

theorem agree_instructionBlock (line before : Nat) (label : String) (instruction : Instruction) :
    Agree (fun one other => one.outline = other.outline)
      (instructionBlock table first declared line before label instruction)
      (instructionBlock table second declared line before label instruction) := by
  have sameForm : Agree Eq (formFor table declared line instruction)
      (formFor table declared line instruction) := .self (fun _ => rfl) _
  refine sameForm.bind ?_
  rintro ⟨opcode, form, value⟩ _ rfl
  -- the length of the program is checked before the immediate, and does not depend on the order
  change Agree _ (if _ then refuse line .programTooLong >>= _ else _)
    (if _ then refuse line .programTooLong >>= _ else _)
  split
  · exact .failure _
  · refine (agree_immediateOf first second line form.width value).bind ?_
    rintro ⟨bytes, references⟩ ⟨otherBytes, otherReferences⟩ ⟨sameLength, sameReferences⟩
    cases sameReferences
    apply Agree.success
    simp only [Block.outline, List.length_cons, show bytes.length = otherBytes.length from sameLength]

theorem agree_blockOf (line before : Nat) (label : String) (instruction : Instruction) :
    Agree (fun one other => one.outline = other.outline)
      (blockOf table first declared line before label instruction)
      (blockOf table second declared line before label instruction) := by
  rw [blockOf, blockOf]
  split
  · apply Agree.self
    intro block
    rfl
  · exact agree_instructionBlock table first second declared line before label instruction

end Orders

theorem length_bytes_of_outline {one other : Block} (same : one.outline = other.outline) :
    one.bytes.length = other.bytes.length := by
  have lengths := congrArg (fun block => block.bytes.length) same
  simpa [Block.outline] using lengths

/-! ## Layouts -/

theorem Layout.SameOutline.define {one other : Layout} (same : one.SameOutline other)
    (label : Option Label) : (one.define label).SameOutline (other.define label) := by
  obtain ⟨size, pending, blocks, labels⟩ := same
  rw [define_eq, define_eq]
  refine ⟨size, ?_, blocks, ?_⟩
  · simp only [pending]
  · simp only [size, labels]

theorem Layout.SameOutline.append {one other : Layout} (same : one.SameOutline other)
    {block otherBlock : Block} (sameBlock : block.outline = otherBlock.outline) :
    (one.append block).SameOutline (other.append otherBlock) := by
  obtain ⟨size, pending, blocks, labels⟩ := same
  refine ⟨?_, rfl, ?_, labels⟩
  · simp only [Layout.append, size, length_bytes_of_outline sameBlock]
  · have first : PlacedBlock.outline { address := one.size, block } =
        PlacedBlock.outline { address := other.size, block := otherBlock } := by
      rw [PlacedBlock.outline, PlacedBlock.outline, size, sameBlock]
    exact congrArg₂ List.cons first blocks

section Orders

variable (table : OpcodeTable) (first second : ByteOrder) (declared : Declarations)

theorem agree_lay {one other : Layout} (same : one.SameOutline other)
    (numbered : NumberedStatement) :
    Agree Layout.SameOutline (lay table first declared one numbered)
      (lay table second declared other numbered) := by
  cases hasInstruction : numbered.statement.instruction with
  | none =>
      rw [lay_of_bare hasInstruction, lay_of_bare hasInstruction]
      exact .success (same.define numbered.statement.label)
  | some instruction =>
      rw [lay_of_instruction hasInstruction, lay_of_instruction hasInstruction, same.size,
        same.pending]
      apply (agree_blockOf table first second declared numbered.line other.size _ instruction).bind
      intro block otherBlock sameBlock
      exact .success ((same.define numbered.statement.label).append sameBlock)

theorem agree_layoutOf (numbered : List NumberedStatement) :
    Agree Layout.SameOutline (layoutOf table first declared numbered)
      (layoutOf table second declared numbered) := by
  have together : List.Forall₂ Eq numbered numbered := List.forall₂_same.2 fun _ _ => rfl
  refine Agree.foldlM ?_ together ⟨rfl, rfl, rfl, rfl⟩
  rintro one other statement _ same rfl
  exact agree_lay table first second declared same statement

end Orders

/-! ## Listings -/

/-- The records of a block say nothing of its bytes. -/
theorem records_outline (placed : PlacedBlock) : placed.outline.records = placed.records := by
  have sameLength : placed.outline.block.bytes.length = placed.block.bytes.length :=
    List.length_replicate
  rw [PlacedBlock.records, PlacedBlock.records, sameLength]
  rfl

theorem map_outline_placed (start : Nat) (blocks : List Block) :
    (placed start blocks).map PlacedBlock.outline = placed start (blocks.map Block.outline) := by
  induction blocks generalizing start with
  | nil => rfl
  | cons block others inductionHypothesis =>
      have sameLength : block.outline.bytes.length = block.bytes.length := List.length_replicate
      rw [placed, List.map_cons, inductionHypothesis, List.map_cons, placed, sameLength]
      rfl

theorem map_unfilled_zipWith (records : List ListingRecord) (code : List UInt8) :
    (records.zipWith ListingRecord.fill code).map ListingRecord.unfilled =
      (records.map ListingRecord.unfilled).take code.length := by
  induction records generalizing code with
  | nil => rw [List.zipWith_nil_left, List.map_nil, List.take_nil]
  | cons record others inductionHypothesis =>
      cases code with
      | nil => rfl
      | cons byte rest =>
          rw [List.zipWith_cons_cons, List.map_cons, inductionHypothesis, List.map_cons,
            List.length_cons, List.take_succ_cons]
          rfl

theorem map_unfilled_records (placed : PlacedBlock) :
    placed.records.map ListingRecord.unfilled = placed.records := by
  rw [PlacedBlock.records, List.map_map]
  rfl

/-- But for its bytes a listing is told by the outlines of the blocks. -/
theorem map_unfilled_listingOf (blocks : List Block) (code : List UInt8) :
    (listingOf blocks code).map ListingRecord.unfilled =
      ((placed 0 (blocks.map Block.outline)).flatMap PlacedBlock.records).take code.length := by
  rw [listingOf, map_unfilled_zipWith, List.map_flatMap, ← map_outline_placed, List.flatMap_map]
  simp only [map_unfilled_records, records_outline]

/-! ## Addresses -/

def SameSize (code otherCode : Array UInt8) : Prop :=
  code.size = otherCode.size

theorem agree_overwriteCode {bytes otherBytes : List UInt8} (sameLength : bytes.length = otherBytes.length)
    {code otherCode : Array UInt8} (sameSize : SameSize code otherCode) (position : Nat) :
    Agree SameSize (overwriteCode code position bytes)
      (overwriteCode otherCode position otherBytes) := by
  induction bytes generalizing otherBytes code otherCode position with
  | nil =>
      obtain rfl := List.length_eq_zero_iff.1 sameLength.symm
      exact .success sameSize
  | cons byte rest inductionHypothesis =>
      obtain ⟨otherByte, otherRest, rfl⟩ := List.exists_cons_of_length_eq_add_one sameLength.symm
      rw [overwriteCode, overwriteCode, show code.size = otherCode.size from sameSize]
      split
      · apply inductionHypothesis (Nat.succ.inj sameLength)
        rw [SameSize, Array.size_setIfInBounds, Array.size_setIfInBounds]
        exact sameSize
      · exact .failure _

section Orders

variable (first second : ByteOrder) (labels : List (String × Nat))

theorem agree_addressBytes (line : Nat) (reference : Reference) :
    Agree (fun bytes otherBytes => bytes.length = otherBytes.length)
      (addressBytes first labels line reference) (addressBytes second labels line reference) := by
  rw [addressBytes, addressBytes]
  cases labels.lookup reference.name with
  | none => exact .failure _
  | some address =>
      simp only
      split
      · apply Agree.success
        rw [length_immediateBytes_eq, length_immediateBytes_eq]
      · exact .failure _

theorem agree_patchCode {placed otherPlaced : PlacedBlock}
    (same : placed.outline = otherPlaced.outline) {code otherCode : Array UInt8}
    (sameSize : SameSize code otherCode) (reference : Reference) :
    Agree SameSize (patchCode first labels placed code reference)
      (patchCode second labels otherPlaced otherCode reference) := by
  have sameAddress : placed.address = otherPlaced.address :=
    (PlacedBlock.mk.inj same).1
  have sameLine : placed.block.line = otherPlaced.block.line :=
    (Block.mk.inj (PlacedBlock.mk.inj same).2).1
  rw [patchCode, patchCode, sameAddress, sameLine]
  apply (agree_addressBytes first second labels otherPlaced.block.line reference).bind
  intro bytes otherBytes sameLength
  exact agree_overwriteCode sameLength sameSize _

theorem agree_patchBlockCode {placed otherPlaced : PlacedBlock}
    (same : placed.outline = otherPlaced.outline) {code otherCode : Array UInt8}
    (sameSize : SameSize code otherCode) :
    Agree SameSize (patchBlockCode first labels code placed)
      (patchBlockCode second labels otherCode otherPlaced) := by
  have sameReferences : placed.block.references = otherPlaced.block.references := by
    have references := congrArg (fun one => one.block.references) same
    exact references
  have together : List.Forall₂ Eq otherPlaced.block.references otherPlaced.block.references :=
    List.forall₂_same.2 fun _ _ => rfl
  rw [patchBlockCode, patchBlockCode, sameReferences]
  refine Agree.foldlM ?_ together sameSize
  rintro one other reference _ sizes rfl
  exact agree_patchCode first second labels same sizes reference

theorem length_flatMap_bytes (blocks : List PlacedBlock) :
    (blocks.flatMap fun placed => placed.block.bytes).length =
      ((blocks.map PlacedBlock.outline).map fun placed => placed.block.bytes.length).sum := by
  rw [List.length_flatMap, List.map_map]
  congr 1
  apply List.map_congr_left
  intro placed _
  exact (List.length_replicate).symm

theorem agree_link {one other : Layout} (same : one.SameOutline other) :
    Agree Program.SameOutline (link first one) (link second other) := by
  have sameBlocks : one.blocks.reverse.map PlacedBlock.outline =
      other.blocks.reverse.map PlacedBlock.outline := by
    rw [List.map_reverse, List.map_reverse, same.blocks]
  have together : List.Forall₂ (fun placed otherPlaced => placed.outline = otherPlaced.outline)
      one.blocks.reverse other.blocks.reverse := by
    rw [← List.forall₂_eq_eq_eq, List.forall₂_map_left_iff, List.forall₂_map_right_iff] at sameBlocks
    exact sameBlocks
  have sameSize : SameSize (one.blocks.reverse.flatMap fun placed => placed.block.bytes).toArray
      (other.blocks.reverse.flatMap fun placed => placed.block.bytes).toArray := by
    rw [SameSize, List.size_toArray, List.size_toArray, length_flatMap_bytes, length_flatMap_bytes, sameBlocks]
  have outlines : (one.blocks.reverse.map PlacedBlock.block).map Block.outline =
      (other.blocks.reverse.map PlacedBlock.block).map Block.outline := by
    have blocks := congrArg (List.map PlacedBlock.block) sameBlocks
    rw [List.map_map, List.map_map] at blocks ⊢
    exact blocks
  rw [link_eq, link_eq, same.labels]
  refine Agree.bind (Agree.foldlM ?_ together sameSize) ?_
  · intro code otherCode placed otherPlaced sizes outlines
    exact agree_patchBlockCode first second other.labels.reverse outlines sizes
  · intro code otherCode sizes
    refine .success ⟨sizes, ?_, sameBlocks, congrArg List.reverse same.labels⟩
    rw [Layout.program, Layout.program, map_unfilled_listingOf, map_unfilled_listingOf, outlines,
      Array.length_toList, Array.length_toList, show code.size = otherCode.size from sizes]

end Orders

theorem agree_assemble (table : OpcodeTable) (first second : ByteOrder) (source : List Char) :
    Agree Program.SameOutline (assemble table first source) (assemble table second source) := by
  have sameDeclared : Agree Eq (declarations table (statements source))
      (declarations table (statements source)) := .self (fun _ => rfl) _
  unfold assemble programOf
  refine sameDeclared.bind ?_
  rintro declared _ rfl
  refine (agree_layoutOf table first second declared (statements source)).bind ?_
  intro one other same
  exact agree_link first second same

end Intel8085.Assembly
