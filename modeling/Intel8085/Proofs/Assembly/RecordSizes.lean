import Intel8085.Proofs.Assembly.HexRecords

/-!
# Record sizes

An image may be asked for in records of any size.  A size of zero, and one of more than 255 bytes
where the image has as many, is refused.  Any other size that is not below zero gives a text whose
data records hold the image.  A size below zero is not refused, and the text has no data record
(`write_keepsData_iff`).
-/

set_option autoImplicit false

namespace Intel8085.Assembly.IntelHex

/-- The bytes of the data records, in their order. -/
def dataOf (records : List Record) : List UInt8 :=
  (records.filter fun record => record.kind == 0).flatMap Record.data

/-- The lines of the text are records, and the data records hold the image, each byte once and in
order. -/
def Carries (text : String) (image : List UInt8) : Prop :=
  ∃ records, records? text.toList = some records ∧ dataOf records = image

/-- What was asked for is refused, or all of the image is in the text. -/
inductive KeepsData (image : List UInt8) : Except Failure String → Prop where
  | refused (failure : Failure) : KeepsData image (.error failure)
  | written {text : String} (carries : Carries text image) : KeepsData image (.ok text)

theorem Carries.unique {text : String} {image other : List UInt8} (carries : Carries text image)
    (carriesToo : Carries text other) : image = other := by
  obtain ⟨records, read, rfl⟩ := carries
  obtain ⟨same, readToo, rfl⟩ := carriesToo
  rw [Option.some.inj (read.symm.trans readToo)]

/-! ## Pieces -/

/-- However an image is cut, its pieces are the image. -/
theorem flatMap_bytes_pieces (size address : Nat) (image : List UInt8) :
    (pieces size address image).flatMap Piece.bytes = image := by
  induction address, image using pieces.induct size with
  | case1 address => rw [pieces, List.flatMap_nil]
  | case2 address byte rest inductionHypothesis =>
      rw [pieces, List.flatMap_cons, inductionHypothesis, List.cons_append, List.take_append_drop]

theorem length_le_of_mem_pieces {size address : Nat} {image : List UInt8} {piece : Piece}
    (member : piece ∈ pieces size address image) : piece.bytes.length ≤ image.length := by
  have inside := List.sublist_flatten_of_mem (List.mem_map_of_mem (f := Piece.bytes) member)
  rw [← List.flatMap_def, flatMap_bytes_pieces] at inside
  exact inside.length_le

theorem dataOf_records (parts : List Piece) :
    dataOf (parts.map Piece.record ++ [Record.ending]) = parts.flatMap Piece.bytes := by
  have data : (parts.map Piece.record).filter (fun record => record.kind == 0) =
      parts.map Piece.record := by
    rw [List.filter_eq_self]
    intro record member
    obtain ⟨piece, _, rfl⟩ := List.mem_map.1 member
    rfl
  have ending : [Record.ending].filter (fun record => record.kind == 0) = [] := by decide
  rw [dataOf, List.filter_append, data, ending, List.append_nil, List.flatMap_map]
  rfl

theorem carries_fileOf {parts : List Piece} (fit : ∀ piece ∈ parts, piece.bytes.length ≤ 255) :
    Carries (fileOf parts) (parts.flatMap Piece.bytes) :=
  ⟨_, records?_fileOf fit, dataOf_records parts⟩

/-! ## Sizes -/

section Sizes

variable {image : List UInt8} {start : Nat} {recordSize : Int}

/-- A size below zero gives the end record alone. -/
theorem write_of_negative (negative : recordSize < 0) :
    write image start recordSize = .ok (fileOf []) := by
  rw [write, if_neg (Int.ne_of_lt negative), if_pos negative]
  rfl

theorem carries_fileOf_nil : Carries (fileOf []) [] :=
  carries_fileOf fun _ member => absurd member List.not_mem_nil

theorem not_keepsData_of_negative (nonempty : image ≠ []) (negative : recordSize < 0) :
    ¬ KeepsData image (write image start recordSize) := by
  rw [write_of_negative negative]
  intro keeps
  cases keeps with
  | written carries => exact nonempty (carries.unique carries_fileOf_nil)

/-- Pieces fit into records if they are short, or if there are too few bytes for longer ones. -/
theorem write_of_positive (positive : 0 < recordSize)
    (fits : recordSize ≤ 255 ∨ image.length ≤ 255) :
    ∃ text, write image start recordSize = .ok text ∧ Carries text image := by
  obtain ⟨size, rfl⟩ : ∃ size : Nat, recordSize = (size + 1 : Nat) :=
    ⟨recordSize.toNat - 1, by omega⟩
  have written := dataRecords_eq size [] start image
  rw [List.reverse_nil, List.nil_append] at written
  have fit : ∀ piece ∈ pieces size start image, piece.bytes.length ≤ 255 := by
    intro piece member
    have bySize := (length_of_mem_pieces member).2
    have byImage := length_le_of_mem_pieces member
    omega
  have carries := carries_fileOf fit
  rw [flatMap_bytes_pieces] at carries
  refine ⟨_, ?_, carries⟩
  rw [write, if_neg (by omega), if_neg (by omega), if_neg (by omega), fileOf, ← written]
  rfl

theorem keepsData_of_not_negative (notNegative : 0 ≤ recordSize) :
    KeepsData image (write image start recordSize) := by
  by_cases zero : recordSize = 0
  · rw [write, if_pos zero]
    exact .refused _
  · by_cases tooLong : 255 < recordSize ∧ 255 < image.length
    · rw [write, if_neg zero, if_neg (by omega), if_pos tooLong]
      exact .refused _
    · obtain ⟨text, written, carries⟩ := @write_of_positive image start recordSize (by omega)
        (by omega)
      rw [written]
      exact .written carries

end Sizes

/-- Whatever the image, if it has a byte at all, and wherever it starts: a record size is refused or
all of the image is written exactly when the size is not below zero, and below zero nothing of the
image is written, but it is not refused. -/
theorem write_keepsData_iff {image : List UInt8} (nonempty : image ≠ []) (start : Nat)
    (recordSize : Int) :
    (KeepsData image (write image start recordSize) ↔ 0 ≤ recordSize) ∧
      (recordSize < 0 → ∃ text, write image start recordSize = .ok text ∧ Carries text []) := by
  refine ⟨⟨?_, keepsData_of_not_negative⟩,
    fun negative => ⟨_, write_of_negative negative, carries_fileOf_nil⟩⟩
  intro keeps
  by_contra negative
  exact not_keepsData_of_negative nonempty (Int.not_le.1 negative) keeps

/-- Two bytes in records of 300 bytes, which is one record. -/
theorem write_keepsData_iff_of_one_record :
    [0x3E, 5] ≠ ([] : List UInt8) ∧ KeepsData [0x3E, 5] (write [0x3E, 5] 0 300) ∧
      write [0x3E, 5] 0 300 = .ok ":020000003E05BB\n:00000001FF\n" := by
  have nonempty : [0x3E, 5] ≠ ([] : List UInt8) := List.cons_ne_nil 0x3E [5]
  exact ⟨nonempty, (write_keepsData_iff nonempty 0 300).1.2 (by decide), by decide +kernel⟩

/-- A byte is lost without a word when each record is to have minus one byte. -/
theorem byte_lost_of_negative_size :
    write [0] 0 (-1) = .ok ":00000001FF\n" ∧ ¬ KeepsData [0] (write [0] 0 (-1)) :=
  ⟨by decide, @not_keepsData_of_negative [0] 0 (-1) (List.cons_ne_nil 0 []) (by decide)⟩

end Intel8085.Assembly.IntelHex
