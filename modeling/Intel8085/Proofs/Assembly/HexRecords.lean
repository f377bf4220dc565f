import Intel8085.Assembly.IntelHex
import Intel8085.Disassembly.HexInput
import Intel8085.Proofs.Results
import Intel8085.Proofs.Text.Cutting

/-!
# Reading Intel HEX

A reader takes a text line by line: a colon, then pairs of digits for a count, an address, a kind,
the data and a check sum, where the count is right and all bytes add up to zero.  Records of kind 0
fill cells, and a record of kind 1 ends the file.  What is written of an image is read as the cells
of that image, each of them once (`write_isFileOf`).
-/

set_option autoImplicit false

namespace Intel8085.Assembly.IntelHex

open Intel8085.Text Intel8085.Disassembly

/-! ## The reader -/

structure Record where
  address : UInt16
  kind : UInt8
  data : List UInt8
  deriving DecidableEq, Repr

def Record.ending : Record where
  address := 0
  kind := 1
  data := []

/-- The bytes of a line, which stand as pairs of digits behind a colon. -/
def bytesOfLine? : List Char → Option (List UInt8)
  | ':' :: digits => readPairs [] digits
  | _ => none

def total (bytes : List UInt8) : Nat :=
  (bytes.map UInt8.toNat).sum

/-- The record of its bytes, if there are as many as it says and they add up to zero. -/
def recordOf? : List UInt8 → Option Record
  | count :: high :: low :: kind :: rest =>
      if rest.length = count.toNat + 1 ∧ total (count :: high :: low :: kind :: rest) % 256 = 0 then
        some { address := joinBytes high low, kind, data := rest.dropLast }
      else none
  | _ => none

def readRecord? (line : List Char) : Option Record :=
  (bytesOfLine? line).bind recordOf?

def records? (text : List Char) : Option (List Record) :=
  (lines text).mapM readRecord?

/-- The cells that a data record fills, each with its byte; addresses go round at the end of memory. -/
def Record.cells (record : Record) : List (Nat × UInt8) :=
  (record.data.zipIdx record.address.toNat).map fun (byte, address) => (address % 65536, byte)

/-- The cells that are filled by the records up to the one that ends the file. -/
def cellsOf? : List Record → Option (List (Nat × UInt8))
  | [] => none
  | record :: others =>
      if record.kind = 0 then (cellsOf? others).map fun cells => record.cells ++ cells
      else if record.kind = 1 then some []
      else none

def read? (text : List Char) : Option (List (Nat × UInt8)) :=
  (records? text).bind cellsOf?

/-- The cells of an image from an address on. -/
def cellsFrom (start : Nat) (image : List UInt8) : List (Nat × UInt8) :=
  (image.zipIdx start).map fun (byte, address) => (address, byte)

/-- The text is a file of the image: its lines are records that add up to zero, as many bytes in each
data record as asked for until the last one has what is left, one record at the end of all, and its
cells are those of the image. -/
structure IsFileOf (image : List UInt8) (start size : Nat) (text : List Char) : Prop where
  sums : ∀ line ∈ lines text, ∃ bytes, bytesOfLine? line = some bytes ∧ total bytes % 256 = 0
  records : ∃ data, records? text = some (data ++ [Record.ending]) ∧
    (∀ record ∈ data, record.kind = 0 ∧ record.data ≠ [] ∧ record.data.length ≤ size) ∧
    ∀ record ∈ data.dropLast, record.data.length = size
  last : ∃ front, text = front ++ (endRecord ++ "\n").toList
  cells : read? text = some (cellsFrom start image)

/-! ## Pairs of digits -/

def hexPair (byte : UInt8) : List Char :=
  hexDigits 2 byte.toNat

theorem hexPair_eq (byte : UInt8) :
    hexPair byte = [hexDigit (byte.toNat / 16 % 16), hexDigit (byte.toNat % 16)] := rfl

theorem digitOfEitherCase?_hexDigit {number : Nat} (small : number < 16) :
    digitOfEitherCase? (hexDigit number) = some number := by
  have allDigits : ∀ digit : Fin 16, digitOfEitherCase? (hexDigit digit) = some digit.val := by
    decide
  exact allDigits ⟨number, small⟩

theorem readPairs_hexPair (read : List UInt8) (byte : UInt8) (rest : List Char) :
    readPairs read (hexPair byte ++ rest) = readPairs (byte :: read) rest := by
  have bound := byte.toNat_lt
  have whole : UInt8.ofNat (16 * (byte.toNat / 16 % 16) + byte.toNat % 16) = byte := by
    apply UInt8.toNat_inj.1
    rw [UInt8.toNat_ofNat']
    omega
  have high := digitOfEitherCase?_hexDigit (Nat.mod_lt (byte.toNat / 16) (by decide : 0 < 16))
  have low := digitOfEitherCase?_hexDigit (Nat.mod_lt byte.toNat (by decide : 0 < 16))
  rw [hexPair_eq, List.cons_append, List.singleton_append, readPairs, high, low]
  simp only [whole]

theorem readPairs_flatMap_hexPair (read bytes : List UInt8) :
    readPairs read (bytes.flatMap hexPair) = some (read.reverse ++ bytes) := by
  induction bytes generalizing read with
  | nil => rw [List.flatMap_nil, List.append_nil, readPairs]
  | cons byte others inductionHypothesis =>
      rw [List.flatMap_cons, readPairs_hexPair, inductionHypothesis, List.reverse_cons,
        List.append_assoc, List.singleton_append]

theorem isLineBreak_of_mem_hexPair {byte : UInt8} {character : Char}
    (member : character ∈ hexPair byte) : isLineBreak character = false := by
  have allDigits : ∀ digit : Fin 16, isLineBreak (hexDigit digit) = false := by decide
  rw [hexPair_eq] at member
  rcases List.mem_cons.1 member with rfl | isLow
  · exact allDigits ⟨_, Nat.mod_lt _ (by decide)⟩
  · rw [List.mem_singleton.1 isLow]
    exact allDigits ⟨_, Nat.mod_lt _ (by decide)⟩

/-! ## Records -/

theorem total_cons (byte : UInt8) (bytes : List UInt8) :
    total (byte :: bytes) = byte.toNat + total bytes := by
  rw [total, List.map_cons, List.sum_cons, ← total]

theorem toNat_foldl_add (bytes : List UInt8) (sum : UInt8) :
    (bytes.foldl (fun sum byte => sum + byte) sum).toNat = (sum.toNat + total bytes) % 256 := by
  induction bytes generalizing sum with
  | nil =>
      have bound := sum.toNat_lt
      exact (Nat.mod_eq_of_lt bound).symm
  | cons byte others inductionHypothesis =>
      rw [List.foldl_cons, inductionHypothesis, UInt8.toNat_add, total_cons]
      omega

/-- With its check sum behind them the bytes of a record add up to zero. -/
theorem total_append_checksum (bytes : List UInt8) :
    total (bytes ++ [checksum bytes]) % 256 = 0 := by
  have sum := toNat_foldl_add bytes 0
  have added : total (bytes ++ [checksum bytes]) = total bytes + (checksum bytes).toNat := by
    simp [total]
  have zero : (0 : UInt8).toNat = 0 := rfl
  rw [added, checksum, UInt8.toNat_sub, sum, zero]
  omega

/-- Bytes of an image that go together, with the address of the first. -/
structure Piece where
  address : Nat
  bytes : List UInt8
  deriving DecidableEq, Repr

def Piece.record (piece : Piece) : Record where
  address := wordOf piece.address
  kind := 0
  data := piece.bytes

/-- The bytes of the record of a piece with their check sum behind them. -/
def Piece.summed (piece : Piece) : List UInt8 :=
  let bytes := recordBytes piece.address piece.bytes
  bytes ++ [checksum bytes]

def Piece.line (piece : Piece) : String :=
  dataRecord piece.address piece.bytes

/-- One byte counts the data, so a record holds 255 bytes at most. -/
theorem Piece.recordOf?_summed {piece : Piece} (fits : piece.bytes.length ≤ 255) :
    recordOf? piece.summed = some piece.record := by
  obtain ⟨address, chunk⟩ := piece
  have counted : (UInt8.ofNat chunk.length).toNat = chunk.length := by
    rw [UInt8.toNat_ofNat']
    exact Nat.mod_eq_of_lt (Nat.lt_succ_of_le fits)
  have sum := total_append_checksum (recordBytes address chunk)
  rw [Piece.summed]
  generalize checksum (recordBytes address chunk) = sumByte at sum ⊢
  have agree : (chunk ++ [sumByte]).length = (UInt8.ofNat chunk.length).toNat + 1 := by
    rw [List.length_append, List.length_singleton, counted]
  rw [recordBytes, List.append_assoc] at sum
  rw [recordBytes, List.append_assoc, List.cons_append, List.cons_append, List.cons_append,
    List.cons_append, List.nil_append, recordOf?, if_pos ⟨agree, sum⟩, joinBytes_split,
    List.dropLast_concat, Piece.record]

/-! ## Lines -/

/-- The line on which the bytes of a record stand. -/
def lineOf (bytes : List UInt8) : List Char :=
  ':' :: bytes.flatMap hexPair

theorem bytesOfLine?_lineOf (bytes : List UInt8) : bytesOfLine? (lineOf bytes) = some bytes :=
  readPairs_flatMap_hexPair [] bytes

theorem isLineBreak_of_mem_lineOf {bytes : List UInt8} {character : Char}
    (member : character ∈ lineOf bytes) : isLineBreak character = false := by
  rcases List.mem_cons.1 member with rfl | inPairs
  · decide
  · obtain ⟨byte, _, inPair⟩ := List.mem_flatMap.1 inPairs
    exact isLineBreak_of_mem_hexPair inPair

theorem Piece.toList_line (piece : Piece) : piece.line.toList = lineOf piece.summed := by
  have pair (byte : UInt8) : (hexByte byte).toList = hexPair byte := String.toList_ofList
  simp only [Piece.line, Piece.summed, dataRecord, lineOf, String.toList_append, String.toList_join,
    List.flatMap_map, List.flatMap_append, List.flatMap_singleton, pair]
  rfl

theorem toList_endRecord : endRecord.toList = lineOf [0, 0, 0, 1, 255] := by
  decide

theorem lines_text {written : List String}
    (plain : ∀ line ∈ written, ∀ character ∈ line.toList, isLineBreak character = false) :
    lines (text written).toList = written.map String.toList := by
  induction written with
  | nil => rfl
  | cons line others inductionHypothesis =>
      have othersPlain : ∀ other ∈ others, ∀ character ∈ other.toList,
          isLineBreak character = false := fun other member =>
        plain other (List.mem_cons_of_mem line member)
      have first : (text (line :: others)).toList = line.toList ++ '\n' :: (text others).toList := by
        simp [text, String.toList_join]
      rw [first, lines_append_lineFeed (plain line List.mem_cons_self),
        inductionHypothesis othersPlain, List.map_cons]

/-! ## Cutting an image -/

/-- The image in pieces of `size + 1` bytes, each with its address. -/
def pieces (size : Nat) (address : Nat) : List UInt8 → List Piece
  | [] => []
  | byte :: rest =>
      { address, bytes := byte :: rest.take size } :: pieces size (address + (size + 1)) (rest.drop size)
termination_by image => image.length
decreasing_by
  rw [List.length_drop, List.length_cons]
  omega

theorem dataRecords_eq (size : Nat) (written : List String) (address : Nat) (image : List UInt8) :
    dataRecords size written address image =
      written.reverse ++ (pieces size address image).map Piece.line := by
  induction address, image using pieces.induct size generalizing written with
  | case1 address =>
      rw [dataRecords, pieces, List.map_nil, List.append_nil]
  | case2 address byte rest inductionHypothesis =>
      have next : (address : Int) + (size + 1) = (address + (size + 1) : Nat) := by omega
      rw [dataRecords, pieces, next, inductionHypothesis, List.reverse_cons, List.append_assoc,
        List.singleton_append, List.map_cons, Piece.line]

theorem length_of_mem_pieces {size address : Nat} {image : List UInt8} {piece : Piece}
    (member : piece ∈ pieces size address image) :
    piece.bytes ≠ [] ∧ piece.bytes.length ≤ size + 1 := by
  induction address, image using pieces.induct size with
  | case1 address =>
      rw [pieces] at member
      exact absurd member List.not_mem_nil
  | case2 address byte rest inductionHypothesis =>
      rw [pieces] at member
      rcases List.mem_cons.1 member with rfl | later
      · refine ⟨List.cons_ne_nil byte _, ?_⟩
        rw [List.length_cons, List.length_take]
        omega
      · exact inductionHypothesis later

/-- Only the last piece may be shorter than the others. -/
theorem length_of_mem_dropLast_pieces {size address : Nat} {image : List UInt8}
    {piece : Piece} (member : piece ∈ (pieces size address image).dropLast) :
    piece.bytes.length = size + 1 := by
  induction address, image using pieces.induct size with
  | case1 address =>
      rw [pieces] at member
      exact absurd member List.not_mem_nil
  | case2 address byte rest inductionHypothesis =>
      rw [pieces] at member
      cases left : pieces size (address + (size + 1)) (rest.drop size) with
      | nil =>
          rw [left] at member
          exact absurd member List.not_mem_nil
      | cons next others =>
          rw [left, List.dropLast_cons_cons] at member
          rcases List.mem_cons.1 member with rfl | later
          · have longer : size < rest.length := by
              apply Nat.lt_of_not_le
              intro short
              rw [List.drop_eq_nil_of_le short, pieces] at left
              cases left
            rw [List.length_cons, List.length_take, Nat.min_eq_left (Nat.le_of_lt longer)]
          · exact inductionHypothesis (left ▸ later)

theorem cellsFrom_append (start : Nat) (front back : List UInt8) :
    cellsFrom start (front ++ back) =
      cellsFrom start front ++ cellsFrom (start + front.length) back := by
  rw [cellsFrom, List.zipIdx_append, List.map_append, ← cellsFrom, ← cellsFrom]

/-- A piece that ends within memory stands where its record says. -/
theorem Piece.cells_record {piece : Piece} (nonempty : piece.bytes ≠ [])
    (fits : piece.address + piece.bytes.length ≤ 65536) :
    piece.record.cells = cellsFrom piece.address piece.bytes := by
  obtain ⟨address, chunk⟩ := piece
  have long : 0 < chunk.length := List.length_pos_iff.2 nonempty
  have within : address + chunk.length ≤ 65536 := fits
  have place : (wordOf address).toNat = address := by
    rw [toNat_wordOf]
    omega
  rw [Record.cells, Piece.record, place, cellsFrom]
  apply List.map_congr_left
  rintro ⟨byte, cell⟩ member
  have bound : cell < address + chunk.length := List.snd_lt_add_of_mem_zipIdx member
  exact Prod.ext (Nat.mod_eq_of_lt (Nat.lt_of_lt_of_le bound within)) rfl

theorem flatMap_cells_pieces {size address : Nat} {image : List UInt8}
    (fits : address + image.length ≤ 65536) :
    ((pieces size address image).map Piece.record).flatMap Record.cells =
      cellsFrom address image := by
  induction address, image using pieces.induct size with
  | case1 address =>
      rw [pieces, List.map_nil, List.flatMap_nil, cellsFrom, List.zipIdx_nil, List.map_nil]
  | case2 address byte rest inductionHypothesis =>
      rw [List.length_cons] at fits
      have firstFits : address + (byte :: rest.take size).length ≤ 65536 := by
        rw [List.length_cons, List.length_take]
        omega
      have whole : byte :: rest = (byte :: rest.take size) ++ rest.drop size := by
        rw [List.cons_append, List.take_append_drop]
      rw [pieces, List.map_cons, List.flatMap_cons,
        Piece.cells_record (List.cons_ne_nil byte _) firstFits]
      -- the address moves by a whole piece, so behind a short one there must be nothing left
      cases left : rest.drop size with
      | nil =>
          rw [whole, left, pieces, List.map_nil, List.flatMap_nil, List.append_nil, List.append_nil]
      | cons next others =>
          have longer : size < rest.length := by
            apply Nat.lt_of_not_le
            intro short
            rw [List.drop_eq_nil_of_le short] at left
            cases left
          have full : (byte :: rest.take size).length = size + 1 := by
            rw [List.length_cons, List.length_take, Nat.min_eq_left (Nat.le_of_lt longer)]
          have laterFits : address + (size + 1) + (rest.drop size).length ≤ 65536 := by
            rw [List.length_drop]
            omega
          rw [← left, inductionHypothesis laterFits, ← full, ← cellsFrom_append, ← whole]

/-! ## Files -/

theorem cellsOf?_append_ending {records : List Record}
    (areData : ∀ record ∈ records, record.kind = 0) :
    cellsOf? (records ++ [Record.ending]) = some (records.flatMap Record.cells) := by
  induction records with
  | nil => rfl
  | cons record others inductionHypothesis =>
      have othersAreData : ∀ other ∈ others, other.kind = 0 := fun other member =>
        areData other (List.mem_cons_of_mem record member)
      rw [List.cons_append, cellsOf?, if_pos (areData record List.mem_cons_self),
        inductionHypothesis othersAreData, Option.map_some, List.flatMap_cons]

/-- The text that is written of an image cut into these pieces. -/
def fileOf (parts : List Piece) : String :=
  text (parts.map Piece.line ++ [endRecord])

theorem lines_fileOf (parts : List Piece) :
    lines (fileOf parts).toList =
      (parts.map Piece.summed ++ [[0, 0, 0, 1, 255]]).map lineOf := by
  have plain : ∀ line ∈ parts.map Piece.line ++ [endRecord], ∀ character ∈ line.toList,
      isLineBreak character = false := by
    intro line member character inLine
    rcases List.mem_append.1 member with isData | isEnd
    · obtain ⟨piece, _, rfl⟩ := List.mem_map.1 isData
      rw [Piece.toList_line] at inLine
      exact isLineBreak_of_mem_lineOf inLine
    · rw [List.mem_singleton.1 isEnd, toList_endRecord] at inLine
      exact isLineBreak_of_mem_lineOf inLine
  have sameLines : String.toList ∘ Piece.line = lineOf ∘ Piece.summed := funext Piece.toList_line
  rw [fileOf, lines_text plain, List.map_append, List.map_append, List.map_map, List.map_map,
    sameLines, List.map_singleton, List.map_singleton, toList_endRecord]

theorem records?_fileOf {parts : List Piece} (fit : ∀ piece ∈ parts, piece.bytes.length ≤ 255) :
    records? (fileOf parts).toList = some (parts.map Piece.record ++ [Record.ending]) := by
  have readBack : List.Forall₂ (fun bytes record => readRecord? (lineOf bytes) = some record)
      (parts.map Piece.summed) (parts.map Piece.record) := by
    rw [List.forall₂_map_left_iff, List.forall₂_map_right_iff, List.forall₂_same]
    intro piece member
    rw [readRecord?, bytesOfLine?_lineOf, Option.bind_some, Piece.recordOf?_summed (fit piece member)]
  have readEnd : readRecord? (lineOf [0, 0, 0, 1, 255]) = some Record.ending := by
    decide
  rw [records?, lines_fileOf, mapM_eq_some_iff, List.forall₂_map_left_iff]
  exact List.rel_append readBack (.cons readEnd .nil)

theorem total_of_mem_lines_fileOf {parts : List Piece} {line : List Char}
    (member : line ∈ lines (fileOf parts).toList) :
    ∃ bytes, bytesOfLine? line = some bytes ∧ total bytes % 256 = 0 := by
  rw [lines_fileOf] at member
  obtain ⟨bytes, isRecord, rfl⟩ := List.mem_map.1 member
  refine ⟨bytes, bytesOfLine?_lineOf bytes, ?_⟩
  rcases List.mem_append.1 isRecord with isData | isEnd
  · obtain ⟨piece, _, rfl⟩ := List.mem_map.1 isData
    exact total_append_checksum (recordBytes piece.address piece.bytes)
  · rw [List.mem_singleton.1 isEnd]
    decide

theorem write_eq_fileOf {size : Nat} (short : size < 255) (address : Nat) (image : List UInt8) :
    write image address (size + 1 : Nat) = .ok (fileOf (pieces size address image)) := by
  have written := dataRecords_eq size [] address image
  rw [List.reverse_nil, List.nil_append] at written
  rw [write, if_neg (by omega), if_neg (by omega), if_neg (by omega), fileOf, ← written]
  rfl

theorem isFileOf_fileOf {size address : Nat} {image : List UInt8} (short : size < 255)
    (fits : address + image.length ≤ 65536) :
    IsFileOf image address (size + 1) (fileOf (pieces size address image)).toList := by
  have fit : ∀ piece ∈ pieces size address image, piece.bytes.length ≤ 255 := by
    intro piece member
    have bound := (length_of_mem_pieces member).2
    omega
  have recordsRead := records?_fileOf fit
  have areData : ∀ record ∈ (pieces size address image).map Piece.record, record.kind = 0 := by
    intro record member
    obtain ⟨piece, _, rfl⟩ := List.mem_map.1 member
    rfl
  constructor
  case sums => exact fun line member => total_of_mem_lines_fileOf member
  case records =>
    refine ⟨_, recordsRead, ?_, ?_⟩
    · intro record member
      obtain ⟨piece, isPiece, rfl⟩ := List.mem_map.1 member
      exact ⟨rfl, length_of_mem_pieces isPiece⟩
    · intro record member
      rw [← List.map_dropLast] at member
      obtain ⟨piece, isPiece, rfl⟩ := List.mem_map.1 member
      exact length_of_mem_dropLast_pieces isPiece
  case last =>
    refine ⟨(text ((pieces size address image).map Piece.line)).toList, ?_⟩
    simp [fileOf, text, String.toList_join]
  case cells =>
    rw [read?, recordsRead, Option.bind_some, cellsOf?_append_ending areData]
    exact congrArg some (flatMap_cells_pieces fits)

/-- Whatever the image, an Intel HEX reader has it back from what is written. -/
theorem write_isFileOf {image : List UInt8} {start recordSize : Int} (within : 0 ≤ start)
    (fits : start + image.length ≤ 65536) (positive : 1 ≤ recordSize) (short : recordSize ≤ 255) :
    ∃ text, write image start recordSize = .ok text ∧
      IsFileOf image start.toNat recordSize.toNat text.toList := by
  obtain ⟨address, rfl⟩ := Int.eq_ofNat_of_zero_le within
  obtain ⟨size, rfl⟩ : ∃ size : Nat, recordSize = (size + 1 : Nat) :=
    ⟨recordSize.toNat - 1, by omega⟩
  have below : size < 255 := by omega
  exact ⟨_, write_eq_fileOf below address image, isFileOf_fileOf below (by omega)⟩

/-- An image that ends with the last cell of memory, with one byte left for the last record. -/
theorem write_isFileOf_of_last_cells :
    ∃ text, write [1, 2, 3, 4, 5] 65531 2 = .ok text ∧
      IsFileOf [1, 2, 3, 4, 5] 65531 2 text.toList :=
  write_isFileOf (by decide) (by decide) (by decide) (by decide)

end Intel8085.Assembly.IntelHex
