import Intel8085.Proofs.Assembly.Records

/-!
# Images

The code and the listing of an image are two lists, and neither is made from the other.  They start
out empty and each operation keeps them together: an emitted byte is appended beside a record that
shows it, and a byte that is replaced is replaced in its record as well.  So behind the emission of
all blocks and the patches of all references there is one record for each byte, and it shows that
byte (`link_eq`).
-/

set_option autoImplicit false

namespace Intel8085.Assembly

open Intel8085.Text

/-- The image of a code whose listing shows it: records filled in with the bytes beside them. -/
def Image.showing (records : List ListingRecord) (code : Array UInt8) : Image where
  code
  listing := (records.zipWith ListingRecord.fill code.toList).toArray

/-! ## Emission -/

/-- An emitted byte is beside its record. -/
theorem emit_showing {records : List ListingRecord} {code : Array UInt8}
    (parallel : records.length = code.size) (byte : UInt8) (record : ListingRecord) :
    (Image.showing records code).emit byte (record.fill byte) =
      .showing (records ++ [record]) (code.push byte) := by
  have together : records.length = code.toList.length := by simpa using parallel
  simp only [Image.emit, Image.showing, Array.toList_push, List.zipWith_append together,
    List.zipWith_cons_cons, List.zipWith_nil_left, List.push_toArray]

/-- The bytes behind the first of a block are listed bare, at the addresses that follow. -/
theorem foldl_emitNext_showing (position : PlacedBlock) {records : List ListingRecord}
    {code : Array UInt8} {index : Nat} (parallel : records.length = code.size)
    (behind : code.size = position.address + index) (notFirst : index ≠ 0) (bytes : List UInt8) :
    bytes.foldl (Image.emitNext position.block.line) (.showing records code) =
      .showing (records ++ (List.range' index bytes.length).map position.recordAt)
        (code ++ bytes.toArray) := by
  induction bytes generalizing records code index with
  | nil => simp only [List.foldl_nil, List.length_nil, List.range'_zero, List.map_nil,
      List.append_nil, Array.append_empty]
  | cons byte rest inductionHypothesis =>
      have bare : (Image.showing records code).emitNext position.block.line byte =
          (Image.showing records code).emit byte ((position.recordAt index).fill byte) := by
        have later : (index == 0) = false := beq_eq_false_iff_ne.2 notFirst
        simp only [Image.emitNext, PlacedBlock.recordAt, ListingRecord.fill, Image.showing, later,
          behind]
        rfl
      have longer : (records ++ [position.recordAt index]).length = (code.push byte).size := by
        rw [List.length_append, parallel, Array.size_push]
        rfl
      have next : (code.push byte).size = position.address + (index + 1) := by
        rw [Array.size_push, behind, Nat.add_assoc]
      rw [List.foldl_cons, bare, emit_showing parallel,
        inductionHypothesis longer next (Nat.succ_ne_zero index), List.length_cons,
        List.range'_succ, List.map_cons, List.append_assoc, List.singleton_append]
      simp

theorem emitBlock_showing {records : List ListingRecord} {code : Array UInt8}
    (parallel : records.length = code.size) (block : Block) :
    (Image.showing records code).emitBlock block =
      .showing (records ++ PlacedBlock.records { address := code.size, block })
        (code ++ block.bytes.toArray) := by
  rw [Image.emitBlock, PlacedBlock.records]
  cases bytes : block.bytes with
  | nil => simp
  | cons first rest =>
      have heading : (Image.showing records code).emitFirst block first =
          (Image.showing records code).emit first
            ((PlacedBlock.recordAt { address := code.size, block } 0).fill first) := rfl
      have longer : (records ++ [PlacedBlock.recordAt { address := code.size, block } 0]).length =
          (code.push first).size := by
        rw [List.length_append, parallel, Array.size_push]
        rfl
      have bare := foldl_emitNext_showing { address := code.size, block } longer
        (Array.size_push first) Nat.one_ne_zero rest
      simp only [heading, emit_showing parallel, bare]
      simp [List.range'_succ]

/-- The blocks are emitted one behind the other, each byte beside its record. -/
theorem foldl_emitBlock_showing {records : List ListingRecord} {code : Array UInt8}
    (parallel : records.length = code.size) (blocks : List Block) :
    blocks.foldl Image.emitBlock (.showing records code) =
      .showing (records ++ (placed code.size blocks).flatMap PlacedBlock.records)
        (code ++ (blocks.flatMap Block.bytes).toArray) := by
  induction blocks generalizing records code with
  | nil => simp [placed]
  | cons block others inductionHypothesis =>
      have longer : (records ++ PlacedBlock.records { address := code.size, block }).length =
          (code ++ block.bytes.toArray).size := by
        rw [List.length_append, length_records, parallel, Array.size_append]
        rfl
      have behind : (code ++ block.bytes.toArray).size = code.size + block.bytes.length :=
        Array.size_append
      rw [List.foldl_cons, emitBlock_showing parallel, inductionHypothesis longer, behind, placed,
        List.flatMap_cons, List.flatMap_cons, List.append_assoc, Array.append_assoc]
      simp only [List.append_toArray]

/-! ## Patches -/

/-- A byte replaced in the code is replaced in the listing. -/
theorem replace_showing {records : List ListingRecord} {code : Array UInt8}
    (parallel : records.length = code.size) (position : Nat) (byte : UInt8) :
    (Image.showing records code).replace position byte =
      if position < code.size then .ok (.showing records (code.setIfInBounds position byte))
      else .error .patchOutsideProgram := by
  by_cases inside : position < code.size
  · have inRecords : position < records.length := parallel ▸ inside
    have shown : (Image.showing records code).listing[position]? =
        some (records[position].fill code[position]) := by
      simp only [Image.showing, List.getElem?_toArray, List.getElem?_zipWith,
        List.getElem?_eq_getElem inRecords, Array.getElem?_toList, Array.getElem?_eq_getElem inside]
    have refilled : (records.zipWith ListingRecord.fill code.toList).set position
        (records[position].fill byte) =
          records.zipWith ListingRecord.fill (code.toList.set position byte) := by
      apply List.ext_getElem?
      intro index
      by_cases here : position = index
      · subst here
        rw [List.getElem?_set_self]
        · have replaced : (code.toList.set position byte)[position]? = some byte :=
            List.getElem?_set_self inside
          simp only [List.getElem?_zipWith, List.getElem?_eq_getElem inRecords, replaced]
        · rw [List.length_zipWith, Array.length_toList]
          exact Nat.lt_min.2 ⟨inRecords, inside⟩
      · simp [List.getElem?_zipWith, List.getElem?_set_ne here]
    rw [Image.replace, shown, if_pos inside]
    simp only [Image.showing, if_pos inside, List.setIfInBounds_toArray, Array.toList_setIfInBounds,
      ← refilled]
    rfl
  · have outside : (Image.showing records code).listing[position]? = none := by
      simp only [Image.showing, List.getElem?_toArray, List.getElem?_eq_none_iff,
        List.length_zipWith, Array.length_toList, parallel, Nat.min_self]
      exact Nat.le_of_not_lt inside
    rw [Image.replace, outside, if_neg inside]

theorem size_of_overwriteCode {bytes : List UInt8} {code written : Array UInt8} {position : Nat}
    (success : overwriteCode code position bytes = .ok written) : written.size = code.size := by
  induction bytes generalizing code position with
  | nil =>
      cases success
      rfl
  | cons byte rest inductionHypothesis =>
      rw [overwriteCode] at success
      split at success
      · rw [inductionHypothesis success, Array.size_setIfInBounds]
      · cases success

theorem overwrite_showing {records : List ListingRecord} {code : Array UInt8}
    (parallel : records.length = code.size) (position : Nat) (bytes : List UInt8) :
    (Image.showing records code).overwrite position bytes =
      (overwriteCode code position bytes).map (.showing records) := by
  induction bytes generalizing code position with
  | nil => rfl
  | cons byte rest inductionHypothesis =>
      rw [Image.overwrite, overwriteCode, replace_showing parallel]
      split
      · have stays : records.length = (code.setIfInBounds position byte).size := by
          rw [parallel, Array.size_setIfInBounds]
        exact inductionHypothesis stays (position + 1)
      · rfl

/-- The code of an image is overwritten whatever its listing shows. -/
theorem overwriteCode_of_overwrite {bytes : List UInt8} {image written : Image} {position : Nat}
    (success : image.overwrite position bytes = .ok written) :
    overwriteCode image.code position bytes = .ok written.code := by
  induction bytes generalizing image position with
  | nil =>
      cases success
      rfl
  | cons byte rest inductionHypothesis =>
      obtain ⟨replaced, isReplaced, later⟩ := bind_eq_ok_iff.1 success
      have here := inductionHypothesis later
      rw [Image.replace] at isReplaced
      split at isReplaced
      · cases isReplaced
      · split at isReplaced
        · rename_i inside
          cases isReplaced
          rw [overwriteCode, if_pos inside]
          exact here
        · cases isReplaced

section Patches

variable {order : ByteOrder} {labels : List (String × Nat)} {records : List ListingRecord}

theorem size_of_patchCode {position : PlacedBlock} {reference : Reference}
    {code patched : Array UInt8}
    (success : patchCode order labels position code reference = .ok patched) :
    patched.size = code.size := by
  rw [patchCode, bind_eq_ok_iff] at success
  obtain ⟨bytes, _, written⟩ := success
  exact size_of_overwriteCode written

theorem patch_showing (position : PlacedBlock) {code : Array UInt8}
    (parallel : records.length = code.size) (reference : Reference) :
    patch order labels position (.showing records code) reference =
      (patchCode order labels position code reference).map (.showing records) := by
  rw [patch, patchCode]
  cases addressBytes order labels position.block.line reference with
  | error failure => rfl
  | ok bytes => exact overwrite_showing parallel _ bytes

theorem patchCode_of_patch {position : PlacedBlock} {reference : Reference} {image patched : Image}
    (success : patch order labels position image reference = .ok patched) :
    patchCode order labels position image.code reference = .ok patched.code := by
  obtain ⟨bytes, found, written⟩ := bind_eq_ok_iff.1 success
  exact bind_eq_ok_iff.2 ⟨bytes, found, overwriteCode_of_overwrite written⟩

/-- A fold over images follows the fold over their codes, as long as each step does. -/
theorem foldlM_showing {Item : Type} {step : Image → Item → Except Failure Image}
    {codeStep : Array UInt8 → Item → Except Failure (Array UInt8)}
    (follows : ∀ code : Array UInt8, records.length = code.size → ∀ item,
      step (.showing records code) item = (codeStep code item).map (.showing records))
    (keepsSize : ∀ {code stepped : Array UInt8} {item : Item},
      codeStep code item = .ok stepped → stepped.size = code.size)
    {code : Array UInt8} (parallel : records.length = code.size) (items : List Item) :
    items.foldlM step (.showing records code) =
      (items.foldlM codeStep code).map (.showing records) := by
  induction items generalizing code with
  | nil => rfl
  | cons item others inductionHypothesis =>
      rw [List.foldlM_cons, List.foldlM_cons, follows code parallel item]
      cases stepped : codeStep code item with
      | error failure => rfl
      | ok next => exact inductionHypothesis (parallel.trans (keepsSize stepped).symm)

theorem size_of_patchBlockCode {position : PlacedBlock} {code patched : Array UInt8}
    (success : patchBlockCode order labels code position = .ok patched) :
    patched.size = code.size :=
  holds_of_foldlM (fun _ _ _ _ patchedOne same => (size_of_patchCode patchedOne).trans same)
    success rfl

theorem patchBlock_showing (code : Array UInt8) (parallel : records.length = code.size)
    (position : PlacedBlock) :
    patchBlock order labels (.showing records code) position =
      (patchBlockCode order labels code position).map (.showing records) :=
  foldlM_showing (fun _ isParallel reference => patch_showing position isParallel reference)
    size_of_patchCode parallel position.block.references

end Patches

/-! ## Programs -/

/-- The program of a layout with a code that its listing shows. -/
def Layout.program (layout : Layout) (code : Array UInt8) : Program where
  code := code.toList
  listing := listingOf (layout.blocks.reverse.map PlacedBlock.block) code.toList
  blocks := layout.blocks.reverse
  labels := layout.labels.reverse

/-- Linking is linking of the code alone, and the listing shows the code that comes out. -/
theorem link_eq (order : ByteOrder) (layout : Layout) :
    link order layout = do
      let code ← layout.blocks.reverse.foldlM (patchBlockCode order layout.labels.reverse)
        (layout.blocks.reverse.flatMap fun position => position.block.bytes).toArray
      return layout.program code := by
  have bytes : (layout.blocks.reverse.map PlacedBlock.block).flatMap Block.bytes =
      layout.blocks.reverse.flatMap fun position => position.block.bytes :=
    List.flatMap_map PlacedBlock.block Block.bytes _
  have nothing : ([] : List ListingRecord).length = (#[] : Array UInt8).size := rfl
  have emitted := foldl_emitBlock_showing nothing (layout.blocks.reverse.map PlacedBlock.block)
  rw [List.nil_append, Array.empty_append, Array.size_empty, bytes] at emitted
  have parallel : ((placed 0 (layout.blocks.reverse.map PlacedBlock.block)).flatMap
      PlacedBlock.records).length =
        (layout.blocks.reverse.flatMap fun position => position.block.bytes).toArray.size := by
    rw [length_flatMap_records, List.size_toArray, bytes]
  unfold link
  simp only
  rw [show Image.empty = .showing [] #[] from rfl, emitted,
    foldlM_showing patchBlock_showing size_of_patchBlockCode parallel]
  cases layout.blocks.reverse.foldlM (patchBlockCode order layout.labels.reverse)
      (layout.blocks.reverse.flatMap fun position => position.block.bytes).toArray with
  | error failure => rfl
  | ok code => rfl

end Intel8085.Assembly
