import Intel8085.Proofs.Assembly.Linking

/-!
# Listing records

A listing has the record of a block at the address of the block (`getElem?_listing`).
-/

set_option autoImplicit false

namespace Intel8085.Assembly

open Intel8085.Text

/-- The record of the first byte of a block. -/
def PlacedBlock.heading (position : PlacedBlock) (byte : UInt8) : ListingRecord where
  address := hexText 4 position.address
  label := position.block.label
  text := position.block.text
  hexCode := hexByte byte
  byteCount := position.block.size
  cycles := position.block.cycles
  states := position.block.states
  line := position.block.line

/-- The record of one byte of a block. -/
def PlacedBlock.recordAt (position : PlacedBlock) (index : Nat) : ListingRecord where
  address := hexText 4 (position.address + index)
  label := if index == 0 then position.block.label else ""
  text := if index == 0 then position.block.text else ""
  hexCode := ""
  byteCount := if index == 0 then position.block.size else 0
  cycles := if index == 0 then position.block.cycles else 0
  states := if index == 0 then position.block.states else 0
  line := position.block.line

/-- The records of a block before bytes are filled in. -/
def PlacedBlock.records (position : PlacedBlock) : List ListingRecord :=
  (List.range' 0 position.block.bytes.length).map position.recordAt

/-- The listing of blocks placed one behind the other, beside their code. -/
def listingOf (blocks : List Block) (code : List UInt8) : List ListingRecord :=
  ((placed 0 blocks).flatMap PlacedBlock.records).zipWith ListingRecord.fill code

theorem length_records (position : PlacedBlock) :
    position.records.length = position.block.bytes.length := by
  rw [PlacedBlock.records, List.length_map, List.length_range']

theorem length_flatMap_records (start : Nat) (blocks : List Block) :
    ((placed start blocks).flatMap PlacedBlock.records).length =
      (blocks.flatMap Block.bytes).length := by
  induction blocks generalizing start with
  | nil => rfl
  | cons block others inductionHypothesis =>
      rw [placed, List.flatMap_cons, List.length_append, length_records, inductionHypothesis,
        List.flatMap_cons, List.length_append]

theorem head?_records {position : PlacedBlock} (holdsBytes : position.block.bytes ≠ []) :
    position.records.head? = some { position.heading 0 with hexCode := "" } := by
  obtain ⟨first, rest, isBytes⟩ := List.exists_cons_of_ne_nil holdsBytes
  rw [PlacedBlock.records, isBytes, List.length_cons, List.range'_succ, List.map_cons,
    List.head?_cons]
  rfl

theorem getElem?_of_drop {Item : Type} {items rest : List Item} {position : Nat} {item : Item}
    (dropped : items.drop position = item :: rest) : items[position]? = some item := by
  rw [← List.head?_drop, dropped, List.head?_cons]

theorem getElem?_listing {order : ByteOrder} {program : Program} {blocks : List Block}
    {position : PlacedBlock} {byte : UInt8} {rest : List UInt8}
    (sound : ∀ block ∈ blocks, block.IsSound)
    (sameCode : program.code = blocks.flatMap (Block.linked order program.labels))
    (listed : program.listing = listingOf blocks program.code)
    (member : position ∈ placed 0 blocks)
    (linked : position.block.linked order program.labels = byte :: rest) :
    program.listing[position.address]? = some (position.heading byte) := by
  have isBlock : position.block ∈ blocks := mem_of_mem_placed member
  have holdsBytes : position.block.bytes ≠ [] := by
    intro empty
    have sameLength := Block.length_linked order program.labels (sound position.block isBlock)
    rw [linked, empty] at sameLength
    exact absurd sameLength (by simp)
  obtain ⟨codeBack, codeDropped⟩ := @exists_drop_linked order program.labels blocks position sound
    member
  rw [linked, List.cons_append, ← sameCode] at codeDropped
  obtain ⟨recordsBack, recordsDropped⟩ := @exists_drop_of_mem_placed ListingRecord
    PlacedBlock.records blocks [] position (fun other _ => length_records other) member
  have isFirst := head?_records holdsBytes
  obtain ⟨others, isRecords⟩ := List.head?_eq_some_iff.1 isFirst
  rw [isRecords, List.cons_append, List.nil_append, List.length_nil] at recordsDropped
  rw [listed, listingOf, List.getElem?_zipWith, getElem?_of_drop recordsDropped,
    getElem?_of_drop codeDropped]
  rfl

end Intel8085.Assembly
