import Intel8085.Assembly.Listing
import Intel8085.Proofs.Assembly.HexRecords
import Intel8085.Proofs.Assembly.Listings
import Intel8085.Proofs.Source.Labels

/-!
# Listings as text

The text of a listing has two lines of heading and one line for each block, and the bytes can be read
back from the lines: they stand behind the column of the address, each as two digits, with one blank
between (`listing_agrees`).
-/

set_option autoImplicit false

namespace Intel8085.Assembly

open Intel8085.Text Intel8085.Source Intel8085.Disassembly
open Intel8085.Assembly.IntelHex (hexPair hexPair_eq isLineBreak_of_mem_hexPair)

/-! ## Reading bytes -/

/-- The bytes that a text begins with, each as two digits with one blank between. -/
def spacedBytes : List Char → List UInt8
  | high :: low :: rest =>
      match hexDigitValue? high, hexDigitValue? low with
      | some upper, some lower =>
          UInt8.ofNat (16 * upper + lower) :: match rest with
            | ' ' :: later => spacedBytes later
            | _ => []
      | _, _ => []
  | _ => []

/-- The bytes on a line of a listing, behind the column of the address. -/
def bytesOnLine (line : List Char) : List UInt8 :=
  spacedBytes (line.drop 6)

/-- No byte stands behind a blank that the text begins with. -/
def EndsBytes (text : List Char) : Prop :=
  ∀ later, text = ' ' :: later → spacedBytes later = []

section HexPair

variable (byte : UInt8)

theorem hexDigitValues_hexPair :
    hexDigitValue? (hexDigit (byte.toNat / 16 % 16)) = some (byte.toNat / 16 % 16) ∧
      hexDigitValue? (hexDigit (byte.toNat % 16)) = some (byte.toNat % 16) ∧
      UInt8.ofNat (16 * (byte.toNat / 16 % 16) + byte.toNat % 16) = byte := by
  refine ⟨hexDigitValue?_hexDigit (Nat.mod_lt _ (by decide)),
    hexDigitValue?_hexDigit (Nat.mod_lt _ (by decide)), ?_⟩
  have bound := byte.toNat_lt
  apply UInt8.toNat_inj.1
  rw [UInt8.toNat_ofNat']
  omega

theorem spacedBytes_hexPair_blank (later : List Char) :
    spacedBytes (hexPair byte ++ ' ' :: later) = byte :: spacedBytes later := by
  obtain ⟨high, low, whole⟩ := hexDigitValues_hexPair byte
  simp [hexPair_eq, spacedBytes, high, low, whole]

theorem spacedBytes_hexPair_of_ends {rest : List Char} (ends : EndsBytes rest) :
    spacedBytes (hexPair byte ++ rest) = [byte] := by
  obtain ⟨high, low, whole⟩ := hexDigitValues_hexPair byte
  match rest with
  | [] => simp [hexPair_eq, spacedBytes, high, low, whole]
  | character :: later =>
      by_cases blank : character = ' '
      · subst blank
        rw [spacedBytes_hexPair_blank, ends later rfl]
      · simp [hexPair_eq, spacedBytes, high, low, whole, blank]

end HexPair

theorem spacedBytes_intercalate {bytes : List UInt8} (holdsBytes : bytes ≠ []) {back : List Char}
    (ends : EndsBytes back) :
    spacedBytes (List.intercalate [' '] (bytes.map hexPair) ++ back) = bytes := by
  induction bytes with
  | nil => exact absurd rfl holdsBytes
  | cons byte others inductionHypothesis =>
      cases others with
      | nil =>
          rw [List.map_singleton, List.intercalate_singleton]
          exact spacedBytes_hexPair_of_ends byte ends
      | cons next later =>
          have rest := inductionHypothesis (List.cons_ne_nil next later)
          rw [List.map_cons, List.map_cons, List.intercalate_cons_cons, ← List.map_cons,
            List.append_assoc, List.append_assoc, List.singleton_append,
            spacedBytes_hexPair_blank, rest]

theorem spacedBytes_of_no_digit {first second : Char} {rest : List Char}
    (none : hexDigitValue? first = none ∨ hexDigitValue? second = none) :
    spacedBytes (first :: second :: rest) = [] := by
  unfold spacedBytes
  rcases none with none | none
  · simp [none]
  · cases hexDigitValue? first <;> simp [none]

theorem endsBytes_of_two_blanks (rest : List Char) : EndsBytes (' ' :: ' ' :: rest) := by
  rintro later ⟨⟩
  cases rest with
  | nil => rfl
  | cons next later => exact spacedBytes_of_no_digit (.inl (by decide))

theorem endsBytes_of_single_digit (digit : Char) (rest : List Char) :
    EndsBytes (' ' :: digit :: ' ' :: rest) := by
  rintro later ⟨⟩
  exact spacedBytes_of_no_digit (.inr (by decide))

/-! ## Lines without breaks -/

/-- No line ends within the text. -/
def IsUnbroken (text : String) : Prop :=
  ∀ character ∈ text.toList, isLineBreak character = false

instance : DecidablePred IsUnbroken := fun text =>
  decidable_of_iff ((text.toList.all fun character => !isLineBreak character) = true)
    (by simp [IsUnbroken])

theorem isLineBreak_of_not_isBlank {character : Char} (plain : isBlank character = false) :
    isLineBreak character = false := by
  simp only [isBlank, isLineBreak, Bool.or_eq_false_iff, Bool.and_eq_false_iff,
    decide_eq_false_iff_not, beq_eq_false_iff_ne] at plain ⊢
  omega

namespace IsUnbroken

variable {first second : String}

theorem append (front : IsUnbroken first) (back : IsUnbroken second) :
    IsUnbroken (first ++ second) := by
  intro character member
  rw [String.toList_append, List.mem_append] at member
  exact member.elim (front character) (back character)

theorem intercalate {separator : String} (between : IsUnbroken separator) {texts : List String}
    (each : ∀ text ∈ texts, IsUnbroken text) : IsUnbroken (separator.intercalate texts) := by
  intro character member
  rw [String.toList_intercalate] at member
  induction texts with
  | nil => exact absurd member (by simp)
  | cons text others inductionHypothesis =>
      obtain ⟨here, later⟩ := List.forall_mem_cons.1 each
      cases others with
      | nil =>
          rw [List.map_singleton, List.intercalate_singleton] at member
          exact here character member
      | cons next rest =>
          rw [List.map_cons, List.map_cons, List.intercalate_cons_cons, List.mem_append,
            List.mem_append, ← List.map_cons] at member
          rcases member with (inText | inSeparator) | inRest
          · exact here character inText
          · exact between character inSeparator
          · exact inductionHypothesis later inRest

theorem replicate_blank (count : Nat) :
    IsUnbroken (String.ofList (List.replicate count ' ')) := by
  intro character member
  rw [String.toList_ofList] at member
  rw [List.eq_of_mem_replicate member]
  decide

theorem fillRight (width : Nat) (plain : IsUnbroken first) : IsUnbroken (fillRight width first) :=
  plain.append (replicate_blank _)

theorem fillLeft (width : Nat) (plain : IsUnbroken first) : IsUnbroken (fillLeft width first) :=
  (replicate_blank _).append plain

theorem hexByte (byte : UInt8) : IsUnbroken (hexByte byte) := by
  intro character member
  rw [Text.hexByte, String.toList_ofList] at member
  exact isLineBreak_of_mem_hexPair member

theorem hexText (width number : Nat) : IsUnbroken (hexText width number) := by
  intro character member
  rw [Text.hexText, String.toList_ofList, hexNumber] at member
  obtain ⟨digit, small, rfl⟩ := mem_hexDigits member
  exact isLineBreak_of_isPlain (isPlain_hexDigit small)

theorem of_isPlainToken (plain : isPlainToken first = true) : IsUnbroken first :=
  fun character member => isLineBreak_of_isPlain (isPlain_of_isPlainToken plain character member)

theorem of_not_isMalformed (proper : isMalformed first = false) : IsUnbroken first := by
  intro character member
  rw [isMalformed, Bool.or_eq_false_iff, List.any_eq_false] at proper
  exact isLineBreak_of_not_isBlank (Bool.eq_false_iff.2 (proper.2 character member))

theorem instructionText {instruction : Instruction} (mnemonic : IsUnbroken instruction.mnemonic)
    (operands : ∀ operand ∈ instruction.operands, IsUnbroken operand) :
    IsUnbroken (instructionText instruction) := by
  have blank : IsUnbroken " " := by decide
  have comma : IsUnbroken "," := by decide
  rw [Assembly.instructionText]
  split
  · exact mnemonic
  · exact (mnemonic.append blank).append (comma.intercalate operands)

end IsUnbroken

/-! ## The line of a block -/

theorem blockLines_of_continues {heading : ListingRecord} {others : List ListingRecord}
    (continues : ∀ other ∈ others, other.Continues heading) (found : List String)
    (back : List ListingRecord) : blockLines found (others ++ back) = blockLines found back := by
  induction others with
  | nil => rfl
  | cons other later inductionHypothesis =>
      obtain ⟨here, behind⟩ := List.forall_mem_cons.1 continues
      rw [List.cons_append, blockLines, if_pos here.byteCount, inductionHypothesis behind]

namespace PlacedBlock

variable (position : PlacedBlock) (bytes : List UInt8)

/-- The line of a block with its bytes. -/
def lineOf : String :=
  listingColumns (hexText 4 position.address) (" ".intercalate (bytes.map hexByte))
      (toString position.block.cycles) (toString position.block.states) ++
    fillRight 8 (if position.block.label.isEmpty then "" else position.block.label ++ ":") ++
    position.block.text

variable {position bytes} {statement : Nat × Instruction}
  (shown : IsShown statement position.block bytes)
include shown

theorem blockLine_listed (first : UInt8) (back : List ListingRecord) :
    blockLine (position.heading first) (position.listed bytes ++ back) = position.lineOf bytes := by
  have length := position.length_listed shown.complete
  have taken : (position.listed bytes ++ back).take (position.heading first).byteCount =
      position.listed bytes := by
    change (position.listed bytes ++ back).take position.block.size = _
    rw [shown.size, ← length, List.take_left]
  rw [blockLine, taken, position.map_hexCode_listed shown.complete]
  rfl

/-- The heading gives a line, and the records behind it none. -/
theorem blockLines_listed (found : List String) (back : List ListingRecord) :
    blockLines found (position.listed bytes ++ back) =
      blockLines (position.lineOf bytes :: found) back := by
  obtain ⟨first, rest, rfl⟩ := List.exists_cons_of_ne_nil shown.holdsBytes
  obtain ⟨others, listed, continues⟩ := position.listed_cons shown.complete
  have line := blockLine_listed shown first back
  have heads : (position.heading first).byteCount ≠ 0 := by
    change position.block.size ≠ 0
    rw [shown.size, List.length_cons]
    omega
  rw [listed, List.cons_append] at line ⊢
  rw [blockLines, if_neg heads, line, blockLines_of_continues continues]

end PlacedBlock

theorem blockLines_flatMap {bytesOf : PlacedBlock → List UInt8} {positions : List PlacedBlock}
    (shown : ∀ position ∈ positions,
      ∃ statement, IsShown statement position.block (bytesOf position)) (found : List String) :
    blockLines found (positions.flatMap fun position => position.listed (bytesOf position)) =
      found.reverse ++ positions.map fun position => position.lineOf (bytesOf position) := by
  induction positions generalizing found with
  | nil => exact (List.append_nil _).symm
  | cons position others inductionHypothesis =>
      obtain ⟨⟨statement, here⟩, later⟩ := List.forall_mem_cons.1 shown
      rw [List.flatMap_cons, PlacedBlock.blockLines_listed here, inductionHypothesis later,
        List.reverse_cons, List.append_assoc]
      rfl

/-! ## What the line of a block shows -/

theorem toList_fillRight (width : Nat) (text : String) :
    (fillRight width text).toList =
      text.toList ++ List.replicate (width - text.toList.length) ' ' := by
  rw [fillRight, String.toList_append, String.toList_ofList, String.length_toList]

theorem length_hexText {width number : Nat} (fits : number < 65536) (wide : 4 ≤ width) :
    (hexText width number).toList.length = width := by
  have digits : hexLength number ≤ 4 := by
    have bits : number.log2 < 16 ∨ number = 0 := by
      by_cases zero : number = 0
      · exact .inr zero
      · exact .inl ((Nat.log2_lt zero).2 fits)
    rcases bits with bits | rfl
    · rw [hexLength]
      omega
    · decide
  rw [hexText, String.toList_ofList, hexNumber, length_hexDigits, Nat.max_eq_left (by omega)]

theorem length_intercalate_hexPair {bytes : List UInt8} (holdsBytes : bytes ≠ []) :
    (List.intercalate [' '] (bytes.map hexPair)).length + 1 = 3 * bytes.length := by
  induction bytes with
  | nil => exact absurd rfl holdsBytes
  | cons byte others inductionHypothesis =>
      cases others with
      | nil => rfl
      | cons next later =>
          have rest := inductionHypothesis (List.cons_ne_nil next later)
          rw [List.map_cons, List.map_cons, List.intercalate_cons_cons, ← List.map_cons]
          simp only [List.length_append, List.length_cons, List.length_nil, hexPair_eq] at rest ⊢
          omega

theorem toList_intercalate_hexByte (bytes : List UInt8) :
    (" ".intercalate (bytes.map hexByte)).toList = List.intercalate [' '] (bytes.map hexPair) := by
  have pair (byte : UInt8) : (hexByte byte).toList = hexPair byte := String.toList_ofList
  rw [String.toList_intercalate, List.map_map]
  exact congrArg (List.intercalate [' ']) (List.map_congr_left fun byte _ => pair byte)

section Shown

variable {position : PlacedBlock} {bytes : List UInt8} {statement : Nat × Instruction}
  (shown : IsShown statement position.block bytes)
include shown

/-- Only data has more than three bytes, and it takes no time. -/
theorem short_or_untimed :
    bytes.length ≤ 3 ∨ (position.block.cycles = 0 ∧ position.block.states = 0) := by
  have timing := shown.timing
  split at timing
  · exact .inr timing
  · obtain ⟨form, found, size, _⟩ := timing
    obtain ⟨opcode, _, isForm⟩ := Option.bind_eq_some_iff.1 found
    have narrow := Form.width_le_two (Form.isRegular_of_standard isForm)
    left
    rw [← shown.size, size, Form.length]
    omega

/-- The columns of the timing end the bytes of a line. -/
theorem endsBytes_timing (back : List Char) :
    EndsBytes (List.replicate (10 - (List.intercalate [' '] (bytes.map hexPair)).length) ' ' ++
      ((fillLeft 2 (toString position.block.cycles)).toList ++
        ((fillLeft 4 (toString position.block.states)).toList ++ back))) := by
  have length := length_intercalate_hexPair shown.holdsBytes
  -- three bytes leave two blanks of their column; more leave none, but then the timing is one digit
  by_cases short : bytes.length ≤ 3
  · obtain ⟨count, blanks⟩ : ∃ count,
        10 - (List.intercalate [' '] (bytes.map hexPair)).length = count + 2 :=
      ⟨8 - (List.intercalate [' '] (bytes.map hexPair)).length, by omega⟩
    rw [blanks]
    exact endsBytes_of_two_blanks _
  · obtain ⟨cycles, states⟩ := (short_or_untimed shown).resolve_left short
    have none : 10 - (List.intercalate [' '] (bytes.map hexPair)).length = 0 := by omega
    rw [none, cycles, states]
    exact endsBytes_of_single_digit '0' _

theorem bytesOnLine_lineOf (inside : position.address < 65536) :
    bytesOnLine (position.lineOf bytes).toList = bytes := by
  have four := length_hexText inside (Nat.le_refl 4)
  have address : (fillRight 6 (hexText 4 position.address)).toList.length = 6 := by
    rw [toList_fillRight, four, List.length_append, four]
    rfl
  rw [bytesOnLine, PlacedBlock.lineOf, listingColumns]
  simp only [String.toList_append, List.append_assoc]
  rw [List.drop_left' address, toList_fillRight, toList_intercalate_hexByte, List.append_assoc]
  exact spacedBytes_intercalate shown.holdsBytes (endsBytes_timing shown _)

end Shown

/-! ## What the listing shows of a block holds no break -/

theorem unbrokenTimings_checked :
    (List.range 256).all (fun opcode => (Standard.formOf opcode).all fun form =>
      decide (IsUnbroken (toString form.cycles) ∧ IsUnbroken (toString form.states))) = true := by
  decide +kernel

theorem isUnbroken_timing {opcode : UInt8} {form : Form}
    (found : OpcodeTable.standard.form? opcode = some form) :
    IsUnbroken (toString form.cycles) ∧ IsUnbroken (toString form.states) :=
  of_decide_eq_true (OpcodeTable.standard_forall unbrokenTimings_checked found)

theorem isUnbroken_text {order : ByteOrder} {declared : Declarations} {line before : Nat}
    {label : String} {instruction : Instruction} {block : Block}
    (emitted : blockOf .standard order declared line before label instruction = .ok block) :
    IsUnbroken (instructionText instruction) := by
  obtain ⟨emission, encodes⟩ : ∃ emission,
      Encodes (declared.map Prod.fst) line instruction emission :=
    ⟨_, (encodes_of_blockOf (fun _ => Iff.rfl) emitted).1⟩
  have operands (proper : instruction.operands.any isMalformed = false) :
      ∀ operand ∈ instruction.operands, IsUnbroken operand := by
    intro operand member
    rw [List.any_eq_false] at proper
    exact .of_not_isMalformed (Bool.eq_false_iff.2 (proper operand member))
  cases encodes with
  | data directive _ proper _ =>
      refine .instructionText ?_ (operands proper)
      rw [directive]
      exact .of_isPlainToken (by decide)
  | form found named proper _ _ =>
      refine .instructionText ?_ (operands proper)
      rw [← named]
      exact .of_isPlainToken (Form.isPlainToken_mnemonic (Form.isRegular_of_standard found))

theorem label_of_blockOf {table : OpcodeTable} {order : ByteOrder} {declared : Declarations}
    {line before : Nat} {label : String} {instruction : Instruction} {block : Block}
    (emitted : blockOf table order declared line before label instruction = .ok block) :
    block.label = label := by
  rw [blockOf] at emitted
  split at emitted
  · obtain ⟨_, _, _, _, _, rfl⟩ := dataBlock_eq_ok_iff.1 emitted
    rfl
  · obtain ⟨_, _, _, _, _, _, _, rfl⟩ := instructionBlock_eq_ok_iff.1 emitted
    rfl

/-- What holds of no label and of every label as it is written holds of the labels of blocks. -/
theorem label_of_lays {table : OpcodeTable} {order : ByteOrder} {declared : Declarations}
    {size : Nat} {pending : String} {numbered : List NumberedStatement} {blocks : List Block}
    {labels : List (String × Nat)} {holds : String → Prop}
    (lays : Lays table order declared size pending numbered blocks labels) (none : holds "")
    (written : ∀ one ∈ numbered, ∀ label, one.statement.label = some label → holds label.written)
    (isPending : holds pending) : ∀ block ∈ blocks, holds block.label := by
  have shown {pending : String} {one : NumberedStatement} (isPending : holds pending)
      (here : ∀ label, one.statement.label = some label → holds label.written) :
      holds (shownLabel pending one.statement.label) := by
    cases isLabel : one.statement.label with
    | none => exact isPending
    | some label => exact here label isLabel
  induction lays with
  | nil => exact fun block member => absurd member List.not_mem_nil
  | bare _ _ inductionHypothesis =>
      obtain ⟨here, later⟩ := List.forall_mem_cons.1 written
      exact inductionHypothesis later (shown isPending here)
  | block _ emitted _ inductionHypothesis =>
      obtain ⟨here, later⟩ := List.forall_mem_cons.1 written
      rw [List.forall_mem_cons, label_of_blockOf emitted]
      exact ⟨shown isPending here, inductionHypothesis later none⟩

section Lines

variable {position : PlacedBlock} {bytes : List UInt8} {statement : Nat × Instruction}

theorem isUnbroken_timing_of_isShown (shown : IsShown statement position.block bytes) :
    IsUnbroken (toString position.block.cycles) ∧ IsUnbroken (toString position.block.states) := by
  have timing := shown.timing
  split at timing
  · rw [timing.1, timing.2]
    decide
  · obtain ⟨form, found, _, cycles, states⟩ := timing
    obtain ⟨opcode, _, isForm⟩ := Option.bind_eq_some_iff.1 found
    rw [cycles, states]
    exact isUnbroken_timing isForm

theorem isUnbroken_lineOf (shown : IsShown statement position.block bytes)
    (text : IsUnbroken position.block.text) (label : IsUnbroken position.block.label) :
    IsUnbroken (position.lineOf bytes) := by
  obtain ⟨cycles, states⟩ := isUnbroken_timing_of_isShown shown
  have blank : IsUnbroken " " := by decide
  have blanks : IsUnbroken "  " := by decide
  have colon : IsUnbroken ":" := by decide
  have codes : IsUnbroken (" ".intercalate (bytes.map hexByte)) := by
    apply blank.intercalate
    intro code member
    obtain ⟨byte, _, rfl⟩ := List.mem_map.1 member
    exact .hexByte byte
  have shownLabel : IsUnbroken
      (if position.block.label.isEmpty then "" else position.block.label ++ ":") := by
    split
    · exact fun character member => absurd member List.not_mem_nil
    · exact label.append colon
  have bytesColumns := ((IsUnbroken.hexText 4 position.address).fillRight 6).append
    (codes.fillRight 10)
  have columns := ((bytesColumns.append (cycles.fillLeft 2)).append (states.fillLeft 4)).append
    blanks
  exact (columns.append (shownLabel.fillRight 8)).append text

end Lines

/-! ## The text of a program -/

section Program

variable {order : ByteOrder} {declared : Declarations} {program : Program} {blocks : List Block}
  {numbered : List (Nat × Instruction)}

theorem address_of_lays {size : Nat} {pending : String} {numbered : List NumberedStatement}
    {labels : List (String × Nat)}
    (lays : Lays .standard order declared size pending numbered blocks labels) :
    ∀ position ∈ placed size blocks, position.address < longestProgram := by
  induction lays with
  | nil => exact fun position member => absurd member List.not_mem_nil
  | bare _ _ inductionHypothesis => exact inductionHypothesis
  | @block size _ _ _ _ block _ _ _ emitted _ inductionHypothesis =>
      rw [placed, List.forall_mem_cons]
      refine ⟨?_, inductionHypothesis⟩
      have fits : size + block.bytes.length ≤ longestProgram :=
        (encodes_of_blockOf (fun _ => Iff.rfl) emitted).2
      have some := List.length_pos_of_ne_nil (bytes_ne_nil_of_blockOf emitted)
      change size < longestProgram
      omega

/-- What the listing shows of a program, one statement after the other. -/
structure IsPrintable (order : ByteOrder) (program : Program) (blocks : List Block) : Prop where
  shown : ∀ position ∈ placed 0 blocks, ∃ statement,
    IsShown statement position.block (position.block.linked order program.labels)
  inside : ∀ position ∈ placed 0 blocks, position.address < longestProgram
  unbroken : ∀ position ∈ placed 0 blocks,
    IsUnbroken (position.lineOf (position.block.linked order program.labels))

theorem lines_listingText (linked : IsLinked order declared program blocks)
    (printable : IsPrintable order program blocks) :
    lines program.listingText.toList = listingHeading.map String.toList ++
      (placed 0 blocks).map fun position =>
        (position.lineOf (position.block.linked order program.labels)).toList := by
  have headed : blockLines [] program.listing = (placed 0 blocks).map fun position =>
      position.lineOf (position.block.linked order program.labels) := by
    rw [listing_eq_flatMap linked]
    exact blockLines_flatMap printable.shown []
  have lineFeed : "\n".toList = ['\n'] := by decide
  have heading : ∀ line ∈ listingHeading, line.toList ≠ [] ∧ IsUnbroken line := by
    decide
  -- a line that holds a break would be read as two, and an empty last line not at all
  have each : ∀ line ∈ listingHeading ++ (placed 0 blocks).map fun position =>
      position.lineOf (position.block.linked order program.labels),
      line.toList ≠ [] ∧ IsUnbroken line := by
    intro line member
    rcases List.mem_append.1 member with inHeading | inBlocks
    · exact heading line inHeading
    · obtain ⟨position, placed, rfl⟩ := List.mem_map.1 inBlocks
      refine ⟨?_, printable.unbroken position placed⟩
      intro none
      obtain ⟨statement, shown⟩ := printable.shown position placed
      have bytes := bytesOnLine_lineOf shown (printable.inside position placed)
      rw [none] at bytes
      exact shown.holdsBytes bytes.symm
  rw [Program.listingText, headed, String.toList_intercalate, lineFeed, lines_intercalate]
  · rw [List.map_append, List.map_map]
    rfl
  · intro text member
    obtain ⟨line, isLine, rfl⟩ := List.mem_map.1 member
    exact (each line isLine).1
  · intro text member
    obtain ⟨line, isLine, rfl⟩ := List.mem_map.1 member
    exact (each line isLine).2

theorem isPrintable_of_lays {source : List Char}
    (linked : IsLinked order declared program blocks)
    (lays : Lays .standard order declared 0 "" (statements source) blocks program.labels) :
    IsPrintable order program blocks := by
  have emitted := forall₂_emitting_of_lays lays
  have labels : ∀ block ∈ blocks, IsUnbroken block.label := by
    refine label_of_lays lays ?_ ?_ ?_
    · exact fun character member => absurd member List.not_mem_nil
    · intro one member label defines character inLabel
      exact isLineBreak_of_not_isBlank (isBlank_of_mem_written member defines inLabel)
    · exact fun character member => absurd member List.not_mem_nil
  have shown : ∀ position ∈ placed 0 blocks, ∃ statement,
      IsShown statement position.block (position.block.linked order program.labels) ∧
        IsUnbroken position.block.text := by
    intro position member
    have isBlock := mem_of_mem_placed member
    obtain ⟨statement, _, before, label, isEmitted⟩ := exists_of_mem_right emitted isBlock
    have isShown := isShown_of_blockOf linked isBlock isEmitted
    refine ⟨statement, isShown, ?_⟩
    rw [isShown.text]
    exact isUnbroken_text isEmitted
  constructor
  case shown =>
    intro position member
    obtain ⟨statement, isShown, _⟩ := shown position member
    exact ⟨statement, isShown⟩
  case inside => exact address_of_lays lays
  case unbroken =>
    intro position member
    obtain ⟨statement, isShown, text⟩ := shown position member
    exact isUnbroken_lineOf isShown text (labels position.block (mem_of_mem_placed member))

end Program

/-! ## Listing and image -/

/-- The listing of a program has a record for each byte, with the address and the value of the byte.
The records are cut into runs, one for each statement that emits bytes, and into as many lines of
text, from which the bytes can be read back. -/
structure ListingAgrees (source : List Char) (program : Program)
    (runs : List (List ListingRecord)) (blockLines : List (List Char)) : Prop where
  addresses : program.listing.map ListingRecord.address =
    (List.range program.code.length).map (hexText 4)
  hexCodes : program.listing.map ListingRecord.hexCode = program.code.map hexByte
  cut : program.listing = runs.flatten
  isRuns : List.Forall₂ IsRun (emitting (statements source)) runs
  increasing : program.listing.Pairwise fun first second => first.line ≤ second.line
  text : lines program.listingText.toList = listingHeading.map String.toList ++ blockLines
  isLines : List.Forall₂ (fun run line =>
    (bytesOnLine line).map hexByte = run.map ListingRecord.hexCode) runs blockLines
  image : blockLines.flatMap bytesOnLine = program.code

/-- For every source text that assembles, listing and image agree. -/
theorem listing_agrees (config : Config) (source : List Char) {program : Program}
    (assembles : assemble .standard config.operandOrder source = .ok program) :
    ∃ runs blockLines, ListingAgrees source program runs blockLines := by
  obtain ⟨declared, blocks, linked, lays⟩ := exists_lays_of_assemble assembles
  have printable := isPrintable_of_lays linked lays
  have listing := listing_eq_flatMap linked
  have runs := forall₂_isRun linked (forall₂_emitting_of_lays lays)
  have read : ∀ position ∈ placed 0 blocks, bytesOnLine (position.lineOf
      (position.block.linked config.operandOrder program.labels)).toList =
        position.block.linked config.operandOrder program.labels := by
    intro position member
    obtain ⟨statement, shown⟩ := printable.shown position member
    exact bytesOnLine_lineOf shown (printable.inside position member)
  refine ⟨(placed 0 blocks).map (program.run config.operandOrder), (placed 0 blocks).map
    fun position => (position.lineOf (position.block.linked config.operandOrder
      program.labels)).toList, ?_⟩
  constructor
  case isRuns => exact runs
  case text => exact lines_listingText linked printable
  case addresses => exact map_address_listing linked
  case hexCodes => exact map_hexCode_listing linked
  case cut => rw [listing, List.flatMap_def]
  case increasing =>
    rw [listing, List.flatMap_def]
    exact pairwise_line_of_isRun (pairwise_line_emitting source) runs
  case isLines =>
    rw [List.forall₂_map_left_iff, List.forall₂_map_right_iff, List.forall₂_same]
    intro position member
    rw [read position member, Program.run,
      position.map_hexCode_listed (length_linked_of_placed linked member)]
  case image =>
    rw [code_eq_flatMap linked, List.flatMap_map]
    exact List.flatMap_congr read

/-- Data and an instruction whose operand is the label of the data. -/
theorem listing_agrees_of_data :
    ∃ program, assemble .standard .big "JMP X\nX: DB 1,2,3,4".toList = .ok program ∧
      program.code = [0xC3, 0x00, 0x03, 1, 2, 3, 4] ∧
      ∃ runs blockLines, ListingAgrees "JMP X\nX: DB 1,2,3,4".toList program runs blockLines := by
  obtain ⟨program, assembles, code⟩ :
      ∃ program, assemble .standard .big "JMP X\nX: DB 1,2,3,4".toList = .ok program ∧
        program.code = [0xC3, 0x00, 0x03, 1, 2, 3, 4] := ⟨_, rfl, rfl⟩
  exact ⟨program, assembles, code, listing_agrees .standard _ assembles⟩

end Intel8085.Assembly
