import Intel8085.Assembly.Program
import Intel8085.Proofs.Assembly.Immediates
import Intel8085.Proofs.Results

/-!
# Linking

The bytes of a program lie block by block, and putting in the address of a label changes only bytes
of the block that refers to it.  So the linked code is the linked blocks one behind the other
(`link_placed_iff`), as long as every reference lies within its block.  Only code is looked at here:
a listing beside it is written to at the same places and has no say in it.
-/

set_option autoImplicit false

namespace Intel8085.Assembly

/-! ## Code by itself -/

/-- What overwriting does to the code of an image. -/
def overwriteCode (code : Array UInt8) (position : Nat) : List UInt8 → Except Failure (Array UInt8)
  | [] => .ok code
  | byte :: rest =>
      if position < code.size then
        overwriteCode (code.setIfInBounds position byte) (position + 1) rest
      else .error .patchOutsideProgram

/-- What a reference has written over the code of an image. -/
def patchCode (order : ByteOrder) (labels : List (String × Nat)) (placed : PlacedBlock)
    (code : Array UInt8) (reference : Reference) : Except Failure (Array UInt8) := do
  let bytes ← addressBytes order labels placed.block.line reference
  overwriteCode code (placed.address + reference.position) bytes

def patchBlockCode (order : ByteOrder) (labels : List (String × Nat)) (code : Array UInt8)
    (placed : PlacedBlock) : Except Failure (Array UInt8) :=
  placed.block.references.foldlM (patchCode order labels placed) code

/-! ## Overwriting -/

/-- The bytes with a part put over them from a position on. -/
def spliced (bytes : List UInt8) (position : Nat) (part : List UInt8) : List UInt8 :=
  bytes.take position ++ part ++ bytes.drop (position + part.length)

theorem length_spliced {bytes part : List UInt8} {position : Nat}
    (fits : position + part.length ≤ bytes.length) :
    (spliced bytes position part).length = bytes.length := by
  simp only [spliced, List.length_append, List.length_take, List.length_drop]
  omega

/-- A part put within the middle of three stretches leaves the outer two alone. -/
theorem spliced_append {bytes part : List UInt8} {position : Nat}
    (fits : position + part.length ≤ bytes.length) (front back : List UInt8) :
    spliced (front ++ bytes ++ back) (front.length + position) part =
      front ++ spliced bytes position part ++ back := by
  have within : position ≤ bytes.length := by omega
  rw [spliced, spliced, List.append_assoc front bytes back, Nat.add_assoc, List.take_length_add_append,
    List.drop_length_add_append, List.take_append_of_le_length within,
    List.drop_append_of_le_length fits]
  simp only [List.append_assoc]

theorem overwriteCode_eq_spliced {code : Array UInt8} {position : Nat} {part : List UInt8}
    (fits : position + part.length ≤ code.size) :
    overwriteCode code position part = .ok (spliced code.toList position part).toArray := by
  induction part generalizing code position with
  | nil =>
      rw [overwriteCode, spliced, List.append_nil, List.length_nil, Nat.add_zero,
        List.take_append_drop]
  | cons byte rest inductionHypothesis =>
      rw [List.length_cons] at fits
      have below : position < code.size := by omega
      have restFits : position + 1 + rest.length ≤ (code.setIfInBounds position byte).size := by
        rw [Array.size_setIfInBounds]
        omega
      rw [overwriteCode, if_pos below, inductionHypothesis restFits]
      congr 2
      have bound : position < code.toList.length := by simpa using below
      have sameEnd : position + 1 + rest.length = position + (rest.length + 1) := by omega
      rw [spliced, spliced, Array.toList_setIfInBounds, List.take_add_one,
        List.take_set_of_le (Nat.le_refl _), List.getElem?_set_self bound,
        List.drop_set_of_lt (by omega), List.length_cons, sameEnd]
      simp only [Option.toList_some, List.append_assoc, List.singleton_append]

/-- Bytes are not put into a program for the one reason that they do not lie within it. -/
theorem eq_of_overwriteCode_eq_error {code : Array UInt8} {position : Nat} {part : List UInt8}
    {failure : Failure} (fails : overwriteCode code position part = .error failure) :
    failure = .patchOutsideProgram := by
  induction part generalizing code position with
  | nil => cases fails
  | cons byte rest inductionHypothesis =>
      rw [overwriteCode] at fails
      split at fails
      · exact inductionHypothesis fails
      · exact (Except.error.inj fails).symm

/-! ## References -/

/-- The label of a reference has an address that the reference has room for. -/
def Resolvable (labels : List (String × Nat)) (reference : Reference) : Prop :=
  ∃ address, labels.lookup reference.name = some address ∧ address < 256 ^ reference.width

/-- The address of a label, for a label that has one. -/
def addressOf (labels : List (String × Nat)) (name : String) : Nat :=
  (labels.lookup name).getD 0

/-- The reference has a width that immediates have, and lies within so many bytes. -/
def Reference.Within (reference : Reference) (size : Nat) : Prop :=
  (reference.width = 1 ∨ reference.width = 2) ∧ reference.position + reference.width ≤ size

/-- The bytes with the addresses of labels where references want them. -/
def resolved (order : ByteOrder) (labels : List (String × Nat)) (references : List Reference)
    (bytes : List UInt8) : List UInt8 :=
  references.foldl (fun bytes reference =>
    spliced bytes reference.position
      (immediateBytes order reference.width (addressOf labels reference.name))) bytes

/-- The bytes of a block once addresses are known. -/
def Block.linked (order : ByteOrder) (labels : List (String × Nat)) (block : Block) : List UInt8 :=
  resolved order labels block.references block.bytes

theorem length_resolved (order : ByteOrder) (labels : List (String × Nat))
    {references : List Reference} {bytes : List UInt8}
    (within : ∀ reference ∈ references, reference.Within bytes.length) :
    (resolved order labels references bytes).length = bytes.length := by
  induction references generalizing bytes with
  | nil => rfl
  | cons reference others inductionHypothesis =>
      obtain ⟨proper, fits⟩ := within reference List.mem_cons_self
      have sameLength : (spliced bytes reference.position (immediateBytes order reference.width
          (addressOf labels reference.name))).length = bytes.length :=
        length_spliced (by rw [length_immediateBytes proper]; exact fits)
      have othersWithin : ∀ other ∈ others, other.Within (spliced bytes reference.position
          (immediateBytes order reference.width (addressOf labels reference.name))).length := by
        intro other member
        rw [sameLength]
        exact within other (List.mem_cons_of_mem reference member)
      exact (inductionHypothesis othersWithin).trans sameLength

theorem addressBytes_eq_ok_iff {order : ByteOrder} {labels : List (String × Nat)} {line : Nat}
    {reference : Reference} {bytes : List UInt8} :
    addressBytes order labels line reference = .ok bytes ↔
      Resolvable labels reference ∧
        bytes = immediateBytes order reference.width (addressOf labels reference.name) := by
  rw [addressBytes, Resolvable, addressOf]
  cases found : labels.lookup reference.name with
  | none =>
      simp only [false_and, exists_false, reduceCtorEq, iff_false]
      intro impossible
      cases impossible
  | some address =>
      simp only [Option.some.injEq, exists_eq_left', Option.getD_some]
      by_cases narrow : address < 256 ^ reference.width
      · rw [if_pos narrow, Except.ok.injEq]
        exact ⟨fun same => ⟨narrow, same.symm⟩, fun both => both.2.symm⟩
      · rw [if_neg narrow]
        constructor
        · intro impossible
          cases impossible
        · intro both
          exact absurd both.1 narrow

/-- A reference is refused at the line of its block, and because it cannot be resolved. -/
theorem addressBytes_eq_error {order : ByteOrder} {labels : List (String × Nat)} {line : Nat}
    {reference : Reference} {failure : Failure}
    (fails : addressBytes order labels line reference = .error failure) :
    (∃ cause, failure = .refused { line, cause }) ∧ ¬ Resolvable labels reference := by
  constructor
  · rw [addressBytes] at fails
    split at fails
    · cases fails
      exact ⟨_, rfl⟩
    · split at fails
      · cases fails
      · cases fails
        exact ⟨_, rfl⟩
  · intro resolvable
    rw [addressBytes_eq_ok_iff.2 ⟨resolvable, rfl⟩] at fails
    cases fails

theorem patchCode_eq_ok_iff {order : ByteOrder} {labels : List (String × Nat)} {block : Block}
    {front bytes back : List UInt8} {reference : Reference} {code : Array UInt8}
    (within : reference.Within bytes.length) :
    patchCode order labels { address := front.length, block } (front ++ bytes ++ back).toArray
        reference = .ok code ↔
      Resolvable labels reference ∧
        code = (front ++ spliced bytes reference.position (immediateBytes order reference.width
          (addressOf labels reference.name)) ++ back).toArray := by
  obtain ⟨proper, fits⟩ := within
  have partFits : reference.position + (immediateBytes order reference.width
      (addressOf labels reference.name)).length ≤ bytes.length := by
    rw [length_immediateBytes proper]
    exact fits
  have codeFits : front.length + reference.position + (immediateBytes order reference.width
      (addressOf labels reference.name)).length ≤ (front ++ bytes ++ back).toArray.size := by
    simp only [List.size_toArray, List.length_append]
    omega
  simp only [patchCode, bind_eq_ok_iff, addressBytes_eq_ok_iff]
  constructor
  · rintro ⟨_, ⟨resolvable, rfl⟩, written⟩
    rw [overwriteCode_eq_spliced codeFits, spliced_append partFits front back] at written
    exact ⟨resolvable, (Except.ok.inj written).symm⟩
  · rintro ⟨resolvable, rfl⟩
    refine ⟨_, ⟨resolvable, rfl⟩, ?_⟩
    rw [overwriteCode_eq_spliced codeFits, spliced_append partFits front back]

theorem foldlM_patchCode_eq_ok_iff {order : ByteOrder} {labels : List (String × Nat)} {block : Block}
    {front bytes back : List UInt8} {references : List Reference} {code : Array UInt8}
    (within : ∀ reference ∈ references, reference.Within bytes.length) :
    references.foldlM (patchCode order labels { address := front.length, block })
        (front ++ bytes ++ back).toArray = .ok code ↔
      (∀ reference ∈ references, Resolvable labels reference) ∧
        code = (front ++ resolved order labels references bytes ++ back).toArray := by
  induction references generalizing bytes with
  | nil =>
      rw [List.foldlM_nil, pure_eq_ok_iff]
      simp only [List.not_mem_nil, false_implies, implies_true, true_and]
      exact eq_comm
  | cons reference others inductionHypothesis =>
      have first := within reference List.mem_cons_self
      have sameLength : (spliced bytes reference.position (immediateBytes order reference.width
          (addressOf labels reference.name))).length = bytes.length :=
        length_spliced (by rw [length_immediateBytes first.1]; exact first.2)
      have othersWithin : ∀ other ∈ others, other.Within (spliced bytes reference.position
          (immediateBytes order reference.width (addressOf labels reference.name))).length := by
        intro other member
        rw [sameLength]
        exact within other (List.mem_cons_of_mem reference member)
      rw [List.foldlM_cons, bind_eq_ok_iff, List.forall_mem_cons]
      constructor
      · rintro ⟨middle, patched, rest⟩
        obtain ⟨resolvable, rfl⟩ := (patchCode_eq_ok_iff first).1 patched
        obtain ⟨othersResolvable, same⟩ := (inductionHypothesis othersWithin).1 rest
        exact ⟨⟨resolvable, othersResolvable⟩, same⟩
      · rintro ⟨⟨resolvable, othersResolvable⟩, same⟩
        exact ⟨_, (patchCode_eq_ok_iff first).2 ⟨resolvable, rfl⟩,
          (inductionHypothesis othersWithin).2 ⟨othersResolvable, same⟩⟩

/-! ## Blocks one behind the other -/

/-- The blocks placed one behind the other from an address on. -/
def placed (start : Nat) : List Block → List PlacedBlock
  | [] => []
  | block :: rest => { address := start, block } :: placed (start + block.bytes.length) rest

/-- Every reference of the block lies within its bytes. -/
def Block.IsSound (block : Block) : Prop :=
  ∀ reference ∈ block.references, reference.Within block.bytes.length

theorem map_block_placed (start : Nat) (blocks : List Block) :
    (placed start blocks).map PlacedBlock.block = blocks := by
  induction blocks generalizing start with
  | nil => rfl
  | cons block rest inductionHypothesis =>
      exact congrArg (block :: ·) (inductionHypothesis (start + block.bytes.length))

theorem mem_of_mem_placed {start : Nat} {blocks : List Block} {position : PlacedBlock}
    (member : position ∈ placed start blocks) : position.block ∈ blocks := by
  rw [← map_block_placed start blocks]
  exact List.mem_map_of_mem member

theorem Block.linked_of_references_eq_nil (order : ByteOrder) (labels : List (String × Nat))
    {block : Block} (noReferences : block.references = []) :
    block.linked order labels = block.bytes := by
  rw [Block.linked, noReferences]
  rfl

theorem Block.length_linked (order : ByteOrder) (labels : List (String × Nat)) {block : Block}
    (sound : block.IsSound) : (block.linked order labels).length = block.bytes.length :=
  length_resolved order labels sound

theorem length_flatMap_linked (order : ByteOrder) (labels : List (String × Nat))
    {blocks : List Block} (sound : ∀ block ∈ blocks, block.IsSound) :
    (blocks.flatMap (Block.linked order labels)).length =
      (blocks.flatMap Block.bytes).length := by
  have each : ∀ block ∈ blocks, (block.linked order labels).length = block.bytes.length :=
    fun block member => Block.length_linked order labels (sound block member)
  rw [List.length_flatMap, List.length_flatMap, List.map_congr_left each]

/-- Linking succeeds exactly when every reference is to a label whose address fits, and leaves the
linked blocks behind the bytes that were there. -/
theorem link_placed_iff {order : ByteOrder} {labels : List (String × Nat)} {blocks : List Block}
    {front : List UInt8} {code : Array UInt8} (sound : ∀ block ∈ blocks, block.IsSound) :
    (placed front.length blocks).foldlM (patchBlockCode order labels)
        (front ++ blocks.flatMap Block.bytes).toArray = .ok code ↔
      (∀ block ∈ blocks, ∀ reference ∈ block.references, Resolvable labels reference) ∧
        code = (front ++ blocks.flatMap (Block.linked order labels)).toArray := by
  -- the front takes in each block once it is linked, so its length stays the address of the next
  induction blocks generalizing front with
  | nil =>
      rw [placed, List.foldlM_nil, pure_eq_ok_iff]
      simp only [List.not_mem_nil, false_implies, implies_true, true_and]
      exact eq_comm
  | cons block rest inductionHypothesis =>
      have blockSound := sound block List.mem_cons_self
      have restSound : ∀ other ∈ rest, other.IsSound := by
        intro other member
        exact sound other (List.mem_cons_of_mem block member)
      have nextAddress : front.length + block.bytes.length =
          (front ++ block.linked order labels).length := by
        rw [List.length_append, Block.length_linked order labels blockSound]
      have firstPatched : ∀ middle : Array UInt8,
          patchBlockCode order labels (front ++ block.bytes ++ rest.flatMap Block.bytes).toArray
              { address := front.length, block } = .ok middle ↔
            (∀ reference ∈ block.references, Resolvable labels reference) ∧
              middle = (front ++ block.linked order labels ++ rest.flatMap Block.bytes).toArray := by
        intro middle
        exact foldlM_patchCode_eq_ok_iff blockSound
      simp only [placed, List.foldlM_cons, bind_eq_ok_iff, List.forall_mem_cons, List.flatMap_cons,
        ← List.append_assoc]
      rw [nextAddress]
      constructor
      · rintro ⟨middle, patched, later⟩
        obtain ⟨resolvable, rfl⟩ := (firstPatched middle).1 patched
        obtain ⟨restResolvable, same⟩ := (inductionHypothesis restSound).1 later
        exact ⟨⟨resolvable, restResolvable⟩, same⟩
      · rintro ⟨⟨resolvable, restResolvable⟩, same⟩
        exact ⟨_, (firstPatched _).2 ⟨resolvable, rfl⟩,
          (inductionHypothesis restSound).2 ⟨restResolvable, same⟩⟩

/-- What the blocks hold one behind the other, when it takes as much room as their bytes: at the
address of a block is what the block holds. -/
theorem exists_drop_of_mem_placed {Item : Type} {content : PlacedBlock → List Item}
    {blocks : List Block} {front : List Item} {position : PlacedBlock}
    (sameLength : ∀ other ∈ placed front.length blocks,
      (content other).length = other.block.bytes.length)
    (member : position ∈ placed front.length blocks) :
    ∃ back, (front ++ (placed front.length blocks).flatMap content).drop position.address =
      content position ++ back := by
  induction blocks generalizing front with
  | nil => exact absurd member List.not_mem_nil
  | cons block rest inductionHypothesis =>
      obtain ⟨firstLength, restLength⟩ := List.forall_mem_cons.1 sameLength
      rw [placed, List.flatMap_cons, ← List.append_assoc]
      rcases List.mem_cons.1 member with rfl | later
      · rw [List.append_assoc]
        exact ⟨_, List.drop_left⟩
      · have nextAddress : front.length + block.bytes.length =
            (front ++ content { address := front.length, block }).length := by
          rw [List.length_append, firstLength]
        rw [nextAddress] at restLength later ⊢
        exact inductionHypothesis restLength later

/-- At the address of a block the linked program has the bytes of the linked block. -/
theorem exists_drop_linked {order : ByteOrder} {labels : List (String × Nat)} {blocks : List Block}
    {position : PlacedBlock} (sound : ∀ block ∈ blocks, block.IsSound)
    (member : position ∈ placed 0 blocks) :
    ∃ back, (blocks.flatMap (Block.linked order labels)).drop position.address =
      position.block.linked order labels ++ back := by
  have sameLength : ∀ other ∈ placed 0 blocks,
      (other.block.linked order labels).length = other.block.bytes.length := by
    intro other isPlaced
    exact Block.length_linked order labels (sound other.block (mem_of_mem_placed isPlaced))
  have dropped := @exists_drop_of_mem_placed UInt8
    (fun other => other.block.linked order labels) blocks [] position sameLength member
  have sameBytes : (placed 0 blocks).flatMap (fun other => other.block.linked order labels) =
      blocks.flatMap (Block.linked order labels) := by
    rw [← List.flatMap_map PlacedBlock.block (Block.linked order labels), map_block_placed]
  rw [List.nil_append, List.length_nil, sameBytes] at dropped
  exact dropped

end Intel8085.Assembly
