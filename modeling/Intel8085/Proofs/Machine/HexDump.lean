import Intel8085.Machine.HexDump
import Intel8085.Proofs.Assembly.ListingTexts
import Intel8085.Proofs.Machine.Stretches

/-!
# What a hex dump shows

The bytes of a stretch of memory can be read back from its dump: the columns of a row stand at the
same places in every row, and the rows follow each other without a gap from the first address to the
last one, which is the end of memory at the latest (`dump_isDump`).
-/

set_option autoImplicit false

namespace Intel8085.HexDump

open Intel8085.Text
open Intel8085.Assembly (spacedBytes EndsBytes IsUnbroken)
open Intel8085.Assembly.IntelHex (hexPair)

/-! ## Reading a dump -/

/-- The bytes in the column behind the address of a row and two blanks. -/
def bytesOfRow (row : List Char) : List UInt8 :=
  spacedBytes ((row.drop 6).take columnWidth)

/-- The column behind the bytes of a row and two blanks. -/
def textOfRow (row : List Char) : List Char :=
  row.drop (6 + columnWidth + 2)

/-- The character of a byte that is printable, and a point for any other byte. -/
def shownAs (byte : UInt8) : Char :=
  if 0x20 ≤ byte.toNat ∧ byte.toNat ≤ 0x7E then Char.ofNat byte.toNat else '.'

/-- A row has an address of four digits and a character for each of its bytes, and there are two
blanks between its columns. -/
structure IsRow (address : Nat) (row : List Char) : Prop where
  digits : row.take 4 = (hexText 4 address).toList
  fourDigits : (hexText 4 address).toList.length = 4
  gap : (row.drop 4).take 2 = [' ', ' ']
  textGap : (row.drop (6 + columnWidth)).take 2 = [' ', ' ']
  text : textOfRow row = (bytesOfRow row).map shownAs

/-- The rows show bytes that stand from an address on. -/
structure IsDump (start : Nat) (bytes : List UInt8) (rows : List (List Char)) : Prop where
  bytes : rows.flatMap bytesOfRow = bytes
  isRow : ∀ index row, rows[index]? = some row → IsRow (start + 16 * index) row
  full : ∀ index row, rows[index]? = some row → index + 1 < rows.length →
    (bytesOfRow row).length = 16
  last : ∀ row, rows.getLast? = some row →
    1 ≤ (bytesOfRow row).length ∧ (bytesOfRow row).length ≤ 16

/-! ## One row -/

theorem character_eq_shownAs (byte : UInt8) : character byte = shownAs byte := by
  have same : (0x20 ≤ byte.toNat && byte.toNat < 0x7F) = true ↔
      0x20 ≤ byte.toNat ∧ byte.toNat ≤ 0x7E := by
    simp only [Bool.and_eq_true, decide_eq_true_eq]
    omega
  simp only [character, shownAs, same]

theorem isLineBreak_shownAs (byte : UInt8) : isLineBreak (shownAs byte) = false := by
  unfold shownAs
  split
  · rename_i printable
    have valid : byte.toNat.isValidChar := by
      left
      omega
    have code : (Char.ofNat byte.toNat).toNat = byte.toNat := by
      rw [Char.ofNat, dif_pos valid]
      rfl
    simp only [isLineBreak, code, Bool.or_eq_false_iff, Bool.and_eq_false_iff,
      decide_eq_false_iff_not, beq_eq_false_iff_ne]
    omega
  · decide

theorem endsBytes_replicate (count : Nat) : EndsBytes (List.replicate count ' ') := by
  intro later blanks
  match count with
  | 0 => cases blanks
  | 1 =>
      cases blanks
      rfl
  | count + 2 =>
      cases blanks
      cases count with
      | zero => rfl
      | succ count => exact Assembly.spacedBytes_of_no_digit (.inl (by decide))

theorem isUnbroken_row (address : Nat) (bytes : List UInt8) : IsUnbroken (row address bytes) := by
  have blank : IsUnbroken " " := by decide
  have blanks : IsUnbroken "  " := by decide
  have codes : IsUnbroken (hexColumn bytes) := by
    refine (blank.intercalate ?_).append (.replicate_blank _)
    intro code member
    obtain ⟨byte, _, rfl⟩ := List.mem_map.1 member
    exact .hexByte byte
  have shown : IsUnbroken (String.ofList (bytes.map character)) := by
    intro letter member
    rw [String.toList_ofList] at member
    obtain ⟨byte, _, rfl⟩ := List.mem_map.1 member
    rw [character_eq_shownAs]
    exact isLineBreak_shownAs byte
  exact ((((IsUnbroken.hexText 4 address).append blanks).append codes).append blanks).append shown

section Row

variable {address : Nat} {bytes : List UInt8}

theorem toList_hexColumn (bytes : List UInt8) :
    (hexColumn bytes).toList = List.intercalate [' '] (bytes.map hexPair) ++
      List.replicate (columnWidth - (List.intercalate [' '] (bytes.map hexPair)).length) ' ' := by
  rw [hexColumn, String.toList_append, String.toList_ofList, ← String.length_toList,
    Assembly.toList_intercalate_hexByte]

variable (nonempty : bytes ≠ []) (atMost : bytes.length ≤ 16)
include nonempty atMost

theorem length_hexColumn : (hexColumn bytes).toList.length = columnWidth := by
  have length := Assembly.length_intercalate_hexPair nonempty
  rw [toList_hexColumn, List.length_append, List.length_replicate, columnWidth]
  omega

variable (inside : address < 65536)
include inside

theorem toList_row :
    ∃ digits column : List Char, digits = (hexText 4 address).toList ∧ digits.length = 4 ∧
      column = (hexColumn bytes).toList ∧ column.length = columnWidth ∧
      (row address bytes).toList = digits ++ [' ', ' '] ++ column ++ [' ', ' '] ++
        bytes.map shownAs := by
  refine ⟨_, _, rfl, Assembly.length_hexText inside (Nat.le_refl 4), rfl,
    length_hexColumn nonempty atMost, ?_⟩
  have blanks : "  ".toList = [' ', ' '] := rfl
  have shown : bytes.map character = bytes.map shownAs :=
    List.map_congr_left fun byte _ => character_eq_shownAs byte
  rw [row, shown]
  simp only [String.toList_append, String.toList_ofList, blanks]

theorem bytesOfRow_row : bytesOfRow (row address bytes).toList = bytes := by
  obtain ⟨digits, column, _, four, isColumn, width, shape⟩ := toList_row nonempty atMost inside
  have behind : (row address bytes).toList.drop 6 = column ++ ([' ', ' '] ++ bytes.map shownAs) := by
    rw [shape]
    simp only [List.append_assoc]
    rw [← List.append_assoc digits, List.drop_left' (by simp [four])]
  rw [bytesOfRow, behind, List.take_left' width, isColumn, toList_hexColumn]
  exact Assembly.spacedBytes_intercalate nonempty (endsBytes_replicate _)

theorem isRow_row : IsRow address (row address bytes).toList := by
  have read := bytesOfRow_row nonempty atMost inside
  obtain ⟨digits, column, isAddress, four, _, width, shape⟩ := toList_row nonempty atMost inside
  constructor
  case digits =>
    rw [shape, ← isAddress]
    simp only [List.append_assoc]
    exact List.take_left' four
  case fourDigits => rw [← isAddress, four]
  case gap =>
    rw [shape]
    simp only [List.append_assoc]
    rw [List.drop_left' four]
    rfl
  case textGap =>
    rw [shape, List.append_assoc _ [' ', ' ']]
    rw [List.drop_left' (by simp [four, width]; omega)]
    rfl
  case text =>
    rw [read, textOfRow, shape, List.drop_left' (by simp [four, width]; omega)]

end Row

/-! ## The rows of a stretch -/

theorem rows_of_ne_nil {bytes : List UInt8} (nonempty : bytes ≠ []) (address : Nat) :
    rows address bytes = row address (bytes.take 16) :: rows (address + 16) (bytes.drop 16) := by
  obtain ⟨byte, rest, rfl⟩ := List.exists_cons_of_ne_nil nonempty
  rw [rows]
  rfl

/-- Each row takes sixteen bytes, as long as there are so many. -/
theorem getElem?_rows (address : Nat) (bytes : List UInt8) (index : Nat) :
    (rows address bytes)[index]? =
      if 16 * index < bytes.length then
        some (row (address + 16 * index) ((bytes.drop (16 * index)).take 16))
      else none := by
  induction index generalizing address bytes with
  | zero =>
      cases bytes with
      | nil => simp [rows]
      | cons byte rest => simp [rows_of_ne_nil (List.cons_ne_nil byte rest)]
  | succ index inductionHypothesis =>
      by_cases empty : bytes = []
      · simp [empty, rows]
      · have next : address + 16 + 16 * index = address + 16 * (index + 1) := by omega
        have further : 16 + 16 * index = 16 * (index + 1) := by omega
        rw [rows_of_ne_nil empty, List.getElem?_cons_succ, inductionHypothesis, List.length_drop,
          List.drop_drop, next, further]
        congr 1
        simp only [eq_iff_iff]
        omega

theorem flatMap_bytesOfRow_rows {address : Nat} {bytes : List UInt8}
    (inside : address + bytes.length ≤ 65536) :
    ((rows address bytes).map String.toList).flatMap bytesOfRow = bytes := by
  induction address, bytes using rows.induct with
  | case1 address =>
      rw [rows]
      rfl
  | case2 address byte rest inductionHypothesis =>
      have here : address < 65536 := by
        rw [List.length_cons] at inside
        omega
      have atMost : ((byte :: rest).take 16).length ≤ 16 := List.length_take_le 16 _
      have nonempty : (byte :: rest).take 16 ≠ [] := List.cons_ne_nil byte _
      rw [rows_of_ne_nil (List.cons_ne_nil byte rest), List.map_cons, List.flatMap_cons,
        bytesOfRow_row nonempty atMost here]
      by_cases short : (byte :: rest).length ≤ 16
      · rw [List.take_of_length_le short, List.drop_of_length_le short, rows]
        exact List.append_nil _
      · have later : address + 16 + ((byte :: rest).drop 16).length ≤ 65536 := by
          rw [List.length_drop]
          omega
        have behind : ((rows (address + 16) ((byte :: rest).drop 16)).map String.toList).flatMap
            bytesOfRow = (byte :: rest).drop 16 := inductionHypothesis later
        rw [behind]
        exact List.take_append_drop 16 _

/-- Bytes that fit behind an address are shown by their rows. -/
theorem isDump_rows {address : Nat} {bytes : List UInt8}
    (inside : address + bytes.length ≤ 65536) :
    IsDump address bytes ((rows address bytes).map String.toList) := by
  have shape : ∀ index line, ((rows address bytes).map String.toList)[index]? = some line →
      16 * index < bytes.length ∧
        line = (row (address + 16 * index) ((bytes.drop (16 * index)).take 16)).toList := by
    intro index line isLine
    rw [List.getElem?_map, getElem?_rows] at isLine
    split at isLine
    · rename_i below
      cases isLine
      exact ⟨below, rfl⟩
    · cases isLine
  have length : ∀ index line, ((rows address bytes).map String.toList)[index]? = some line →
      IsRow (address + 16 * index) line ∧
        (bytesOfRow line).length = min 16 (bytes.length - 16 * index) := by
    intro index line isLine
    obtain ⟨below, rfl⟩ := shape index line isLine
    have atMost : ((bytes.drop (16 * index)).take 16).length ≤ 16 := List.length_take_le 16 _
    have length : ((bytes.drop (16 * index)).take 16).length =
        min 16 (bytes.length - 16 * index) := by
      rw [List.length_take, List.length_drop]
    have nonempty : (bytes.drop (16 * index)).take 16 ≠ [] := by
      rw [← List.length_pos_iff, length]
      omega
    have here : address + 16 * index < 65536 := by omega
    exact ⟨isRow_row nonempty atMost here, by rw [bytesOfRow_row nonempty atMost here, length]⟩
  constructor
  case bytes => exact flatMap_bytesOfRow_rows inside
  case isRow => exact fun index line isLine => (length index line isLine).1
  case full =>
    intro index line isLine more
    have next := List.getElem?_eq_getElem more
    have below := (shape _ _ next).1
    rw [(length index line isLine).2]
    omega
  case last =>
    intro line isLast
    rw [List.getLast?_eq_getElem?] at isLast
    have below := (shape _ _ isLast).1
    rw [(length _ _ isLast).2]
    omega

theorem lines_of_rows {address : Nat} {bytes : List UInt8} :
    lines ("\n".intercalate (rows address bytes)).toList =
      (rows address bytes).map String.toList := by
  have lineFeed : "\n".toList = ['\n'] := rfl
  have isRow : ∀ text ∈ rows address bytes, ∃ place stretch, text = row place stretch := by
    intro text member
    obtain ⟨index, isText⟩ := List.mem_iff_getElem?.1 member
    rw [getElem?_rows] at isText
    split at isText
    · cases isText
      exact ⟨_, _, rfl⟩
    · cases isText
  rw [String.toList_intercalate, lineFeed, lines_intercalate]
  · intro text member
    obtain ⟨other, isOther, rfl⟩ := List.mem_map.1 member
    obtain ⟨place, stretch, rfl⟩ := isRow other isOther
    intro nothing
    have blanks : ' ' ∈ (row place stretch).toList := by
      simp [row]
    rw [nothing] at blanks
    exact List.not_mem_nil blanks
  · intro text member
    obtain ⟨other, isOther, rfl⟩ := List.mem_map.1 member
    obtain ⟨place, stretch, rfl⟩ := isRow other isOther
    exact isUnbroken_row place stretch

/-! ## Dumps -/

/-- The bytes of a stretch that ends at the end of memory at the latest. -/
theorem take_drop_toList (memory : Memory) (start : UInt16) (length : Nat) :
    (memory.toList.drop start.toNat).take length =
      (List.range' start.toNat (min (start.toNat + length) 65536 - start.toNat)).map
        memory.get := by
  have cells : memory.toList.length = 65536 := Bank.length_toList memory
  apply List.ext_getElem?
  intro index
  rw [List.getElem?_map]
  by_cases inside : index < min (start.toNat + length) 65536 - start.toNat
  · rw [List.getElem?_range' inside, List.getElem?_take_of_lt (by omega), List.getElem?_drop,
      Bank.toList_eq_map_get, List.getElem?_map, List.getElem?_range (by omega), Nat.one_mul]
  · rw [List.getElem?_eq_none (by rw [List.length_take, List.length_drop]; omega),
      List.getElem?_eq_none (by rw [List.length_range']; omega)]
    rfl

/-- Whatever the memory, the address and the length: the dump of the stretch shows the bytes from
the address on, up to the length or to the end of memory, and nothing else. -/
theorem dump_isDump (memory : Memory) (start : UInt16) (length : Nat) :
    ∃ text, dump memory start.toNat length = .ok text ∧
      IsDump start.toNat
        ((List.range' start.toNat (min (start.toNat + length) 65536 - start.toNat)).map memory.get)
        (lines text.toList) ∧
      (length = 0 → lines text.toList = []) := by
  refine ⟨"\n".intercalate (rows start.toNat ((memory.toList.drop start.toNat).take length)),
    ?_, ?_, ?_⟩
  · rw [dump, Memory.address_toNat]
    rfl
  · rw [← take_drop_toList, lines_of_rows]
    apply isDump_rows
    rw [List.length_take, List.length_drop, Bank.length_toList]
    have bound := start.toNat_lt
    omega
  · rintro rfl
    rw [lines_of_rows, List.take_zero, rows]
    rfl

end Intel8085.HexDump
