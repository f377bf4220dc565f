import Intel8085.Proofs.Assembly.Encoding
import Intel8085.Proofs.Assembly.Labels
import Intel8085.Proofs.Assembly.Lengths
import Intel8085.Proofs.Disassembly.Decoding

/-!
# Listings and images

The bytes of a program and its listing records go together one by one, also where addresses of labels
were put in, for both lists are written to in step (`link_eq`): the record of a byte has its address
and its value.  The records of a program are those of its statements one behind the other
(`forall₂_isRun`): a heading with the number of bytes and the timing, and behind it a bare record for
each further byte.
-/

set_option autoImplicit false

namespace Intel8085.Assembly

open Intel8085.Text Intel8085.Source Intel8085.Disassembly

/-! ## The records of a block -/

/-- A record of a byte that is not the first of its block. -/
structure ListingRecord.Continues (record heading : ListingRecord) : Prop where
  byteCount : record.byteCount = 0
  label : record.label = ""
  text : record.text = ""
  cycles : record.cycles = 0
  states : record.states = 0
  line : record.line = heading.line

/-- Data takes no time, and an instruction as much as the table says of its opcode. -/
def ListingRecord.HasTimingOf (record : ListingRecord) (instruction : Instruction) : Prop :=
  if instruction.mnemonic = dataDirective then record.cycles = 0 ∧ record.states = 0
  else
    ∃ opcode form, record.hexCode = hexByte opcode ∧
      OpcodeTable.standard.form? opcode = some form ∧ record.cycles = form.cycles ∧
      record.states = form.states

/-- The records are those of the block of a statement. -/
inductive IsRun (statement : Nat × Instruction) : List ListingRecord → Prop where
  | intro {heading : ListingRecord} {others : List ListingRecord}
      (byteCount : heading.byteCount = others.length + 1) (line : heading.line = statement.1)
      (text : heading.text = instructionText statement.2)
      (timing : heading.HasTimingOf statement.2)
      (continues : ∀ other ∈ others, other.Continues heading) : IsRun statement (heading :: others)

namespace PlacedBlock

variable (position : PlacedBlock)

/-- The records of a block with bytes filled in. -/
def listed (bytes : List UInt8) : List ListingRecord :=
  position.records.zipWith ListingRecord.fill bytes

theorem listed_eq {bytes : List UInt8} (complete : bytes.length = position.block.bytes.length) :
    position.listed bytes = bytes.zipIdx.map fun (byte, index) =>
      (position.recordAt index).fill byte := by
  apply List.ext_getElem?
  intro index
  rw [listed, PlacedBlock.records, ← complete]
  simp only [List.getElem?_zipWith, List.getElem?_map, List.getElem?_zipIdx]
  by_cases inside : index < bytes.length
  · simp [inside]
  · simp [inside]

theorem length_listed {bytes : List UInt8} (complete : bytes.length = position.block.bytes.length) :
    (position.listed bytes).length = bytes.length := by
  rw [listed_eq position complete, List.length_map, List.length_zipIdx]

theorem map_address_listed {bytes : List UInt8}
    (complete : bytes.length = position.block.bytes.length) :
    (position.listed bytes).map ListingRecord.address =
      (List.range' position.address bytes.length).map (hexText 4) := by
  have shifted := List.map_add_range' (a := position.address) 0 bytes.length 1
  rw [Nat.add_zero] at shifted
  rw [listed_eq position complete, ← shifted, ← List.zipIdx_map_snd, List.map_map, List.map_map,
    List.map_map]
  rfl

theorem map_hexCode_listed {bytes : List UInt8}
    (complete : bytes.length = position.block.bytes.length) :
    (position.listed bytes).map ListingRecord.hexCode = bytes.map hexByte := by
  have values : bytes.map hexByte = (bytes.zipIdx.map Prod.fst).map hexByte := by
    rw [List.zipIdx_map_fst]
  rw [listed_eq position complete, values, List.map_map, List.map_map]
  rfl

theorem listed_cons {first : UInt8} {rest : List UInt8}
    (complete : (first :: rest).length = position.block.bytes.length) :
    ∃ others, position.listed (first :: rest) = position.heading first :: others ∧
      ∀ other ∈ others, other.Continues (position.heading first) := by
  rw [listed_eq position complete, List.zipIdx_cons, List.map_cons]
  refine ⟨_, rfl, ?_⟩
  intro other member
  obtain ⟨⟨byte, index⟩, listed, rfl⟩ := List.mem_map.1 member
  have behind : (index == 0) = false := by
    have bounds := List.mem_zipIdx listed
    simp only [beq_eq_false_iff_ne]
    omega
  constructor
  all_goals simp [ListingRecord.fill, recordAt, heading, behind]

end PlacedBlock

/-! ## The blocks of a program -/

/-- The linked bytes of a block, with what the listing shows of its statement. -/
structure IsShown (statement : Nat × Instruction) (block : Block) (bytes : List UInt8) :
    Prop where
  holdsBytes : bytes ≠ []
  complete : bytes.length = block.bytes.length
  size : block.size = bytes.length
  line : block.line = statement.1
  text : block.text = instructionText statement.2
  timing : if statement.2.mnemonic = dataDirective then block.cycles = 0 ∧ block.states = 0
    else ∃ form, bytes.head?.bind OpcodeTable.standard.form? = some form ∧
      block.size = form.length ∧ block.cycles = form.cycles ∧ block.states = form.states

theorem isRun_listed {statement : Nat × Instruction} {position : PlacedBlock}
    {bytes : List UInt8} (shown : IsShown statement position.block bytes) :
    IsRun statement (position.listed bytes) := by
  obtain ⟨first, rest, rfl⟩ := List.exists_cons_of_ne_nil shown.holdsBytes
  obtain ⟨others, listed, continues⟩ := position.listed_cons shown.complete
  have length := position.length_listed shown.complete
  have timing := shown.timing
  rw [listed, List.length_cons] at length
  rw [listed]
  refine .intro (shown.size.trans length.symm) shown.line shown.text ?_ continues
  rw [ListingRecord.HasTimingOf]
  split
  · rename_i isData
    rw [if_pos isData] at timing
    exact timing
  · rename_i noData
    rw [if_neg noData] at timing
    obtain ⟨form, found, _, cycles, states⟩ := timing
    exact ⟨first, form, rfl, found, cycles, states⟩

theorem isShown_of_blockOf {order : ByteOrder} {declared : Declarations} {program : Program}
    {blocks : List Block} (linked : IsLinked order declared program blocks)
    {statement : Nat × Instruction} {before : Nat} {label : String} {block : Block}
    (member : block ∈ blocks)
    (emitted : blockOf .standard order declared statement.1 before label statement.2 = .ok block) :
    IsShown statement block (block.linked order program.labels) := by
  obtain ⟨line, text⟩ := line_and_text_of_blockOf emitted
  have complete := Block.length_linked order program.labels (linked.sound block member)
  have holdsBytes : block.linked order program.labels ≠ [] := by
    intro none
    rw [none] at complete
    exact bytes_ne_nil_of_blockOf emitted (List.length_eq_zero_iff.1 complete.symm)
  by_cases isData : statement.2.mnemonic = dataDirective
  · rw [blockOf_of_data isData] at emitted
    obtain ⟨_, _, _, values, _, rfl⟩ := dataBlock_eq_ok_iff.1 emitted
    refine ⟨holdsBytes, complete, ?_, line, text, ?_⟩
    · rw [complete, dataBlockOf, List.length_map]
    · rw [if_pos isData]
      exact ⟨rfl, rfl⟩
  · rw [blockOf_of_no_data isData] at emitted
    -- references are filled in behind the opcode, so the table still tells the form from it
    obtain ⟨opcode, form, bytes, decodes⟩ :=
      exists_decodesTo linked.sameNames emitted (linked.resolvable block member)
    refine ⟨holdsBytes, complete, ?_, line, text, ?_⟩
    · rw [decodes.linked, decodes.size, List.length_cons, decodes.complete, Form.length,
        Nat.add_comm]
    · rw [if_neg isData, decodes.linked]
      exact ⟨form, decodes.found, decodes.size, decodes.cycles, decodes.states⟩

/-! ## The listing of a program -/

theorem zipWith_flatMap {Item First Second Result : Type} {combine : First → Second → Result}
    {first : Item → List First} {second : Item → List Second} {items : List Item}
    (sameLength : ∀ item ∈ items, (first item).length = (second item).length) :
    (items.flatMap first).zipWith combine (items.flatMap second) =
      items.flatMap fun item => (first item).zipWith combine (second item) := by
  induction items with
  | nil => rfl
  | cons item others inductionHypothesis =>
      obtain ⟨here, later⟩ := List.forall_mem_cons.1 sameLength
      rw [List.flatMap_cons, List.flatMap_cons, List.flatMap_cons, List.zipWith_append here,
        inductionHypothesis later]

/-- The addresses of the bytes of blocks placed one behind the other are counted through. -/
theorem flatMap_range'_placed (start : Nat) (blocks : List Block) :
    ((placed start blocks).flatMap fun position =>
        List.range' position.address position.block.bytes.length) =
      List.range' start (blocks.flatMap Block.bytes).length := by
  induction blocks generalizing start with
  | nil => rfl
  | cons block others inductionHypothesis =>
      rw [placed, List.flatMap_cons, inductionHypothesis, List.flatMap_cons, List.length_append,
        List.range'_append_1]

/-- The records of one block of a program. -/
def Program.run (program : Program) (order : ByteOrder) (position : PlacedBlock) :
    List ListingRecord :=
  position.listed (position.block.linked order program.labels)

section Program

variable {order : ByteOrder} {declared : Declarations} {program : Program} {blocks : List Block}
  {numbered : List (Nat × Instruction)}

theorem length_linked_of_placed (linked : IsLinked order declared program blocks)
    {position : PlacedBlock} (member : position ∈ placed 0 blocks) :
    (position.block.linked order program.labels).length = position.block.bytes.length :=
  Block.length_linked order program.labels (linked.sound _ (mem_of_mem_placed member))

theorem code_eq_flatMap (linked : IsLinked order declared program blocks) :
    program.code = (placed 0 blocks).flatMap fun position =>
      position.block.linked order program.labels := by
  rw [linked.sameCode, ← List.flatMap_map PlacedBlock.block (Block.linked order program.labels),
    map_block_placed]

theorem listing_eq_flatMap (linked : IsLinked order declared program blocks) :
    program.listing = (placed 0 blocks).flatMap (program.run order) := by
  rw [linked.listed, listingOf, code_eq_flatMap linked]
  apply zipWith_flatMap
  intro position member
  rw [length_records, length_linked_of_placed linked member]

theorem map_hexCode_listing (linked : IsLinked order declared program blocks) :
    program.listing.map ListingRecord.hexCode = program.code.map hexByte := by
  rw [listing_eq_flatMap linked, code_eq_flatMap linked, List.map_flatMap, List.map_flatMap]
  apply List.flatMap_congr
  intro position member
  exact position.map_hexCode_listed (length_linked_of_placed linked member)

theorem length_code (linked : IsLinked order declared program blocks) :
    program.code.length = (blocks.flatMap Block.bytes).length := by
  rw [linked.sameCode, length_flatMap_linked order program.labels linked.sound]

theorem map_address_listing (linked : IsLinked order declared program blocks) :
    program.listing.map ListingRecord.address =
      (List.range program.code.length).map (hexText 4) := by
  -- addresses are counted block by block, and the blocks are placed one behind the other
  rw [listing_eq_flatMap linked, length_code linked, List.range_eq_range', ← flatMap_range'_placed,
    List.map_flatMap, List.map_flatMap]
  apply List.flatMap_congr
  intro position member
  have complete := length_linked_of_placed linked member
  rw [Program.run, position.map_address_listed complete, complete]

theorem forall₂_isRun (linked : IsLinked order declared program blocks)
    (emitted : List.Forall₂ (fun statement block => ∃ before label,
      blockOf .standard order declared statement.1 before label statement.2 = .ok block)
        numbered blocks) :
    List.Forall₂ IsRun numbered ((placed 0 blocks).map (program.run order)) := by
  rw [List.forall₂_map_right_iff]
  rw [← map_block_placed 0 blocks, List.forall₂_map_right_iff] at emitted
  apply forall₂_of_mem emitted
  rintro statement _ position member ⟨before, label, isBlock⟩
  exact isRun_listed (isShown_of_blockOf linked (mem_of_mem_placed member) isBlock)

theorem pairwise_line_emitting (source : List Char) :
    (emitting (statements source)).Pairwise fun first second => first.1 < second.1 := by
  rw [emitting, List.pairwise_filterMap]
  apply (pairwise_line_statements source).imp
  intro first second before one isFirst other isSecond
  obtain ⟨_, _, rfl⟩ := Option.map_eq_some_iff.1 isFirst
  obtain ⟨_, _, rfl⟩ := Option.map_eq_some_iff.1 isSecond
  exact before

theorem IsRun.line_of_mem {statement : Nat × Instruction} {run : List ListingRecord}
    (isRun : IsRun statement run) : ∀ record ∈ run, record.line = statement.1 := by
  obtain ⟨_, line, _, _, continues⟩ := isRun
  rw [List.forall_mem_cons]
  exact ⟨line, fun other member => (continues other member).line.trans line⟩

/-- Runs of statements on lines with increasing numbers have records on lines that never decrease. -/
theorem pairwise_line_of_isRun {runs : List (List ListingRecord)}
    (increasing : numbered.Pairwise fun first second => first.1 < second.1)
    (isRuns : List.Forall₂ IsRun numbered runs) :
    runs.flatten.Pairwise fun first second => first.line ≤ second.line := by
  induction isRuns with
  | nil => exact .nil
  | cons isRun others inductionHypothesis =>
      obtain ⟨behind, othersIncreasing⟩ := List.pairwise_cons.1 increasing
      rw [List.flatten_cons, List.pairwise_append]
      refine ⟨?_, inductionHypothesis othersIncreasing, ?_⟩
      · apply List.pairwise_of_forall_mem_list
        intro first inRun second alsoInRun
        rw [isRun.line_of_mem first inRun, isRun.line_of_mem second alsoInRun]
      · intro first inRun second inLater
        obtain ⟨run, isLater, inside⟩ := List.mem_flatten.1 inLater
        obtain ⟨other, inOthers, otherRun⟩ := exists_of_mem_right others isLater
        rw [isRun.line_of_mem first inRun, otherRun.line_of_mem second inside]
        exact Nat.le_of_lt (behind other inOthers)

end Program

end Intel8085.Assembly
