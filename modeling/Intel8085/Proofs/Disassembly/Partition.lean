import Intel8085.Proofs.Disassembly.Sweep
import Intel8085.Proofs.InstructionSet.Entries

/-!
# Images cut into lines

A sweep cuts an image into lines without a gap and without an overlap, whatever the opcode table, if
no form of it has more than two immediate bytes.  Each line is the one that is read at its place,
every line takes a byte at least, so there are no more lines than bytes, and the lines from any of
them on are those of what is left of the image there (`sweep_isPartition`).
-/

set_option autoImplicit false

namespace Intel8085.Disassembly

/-- How many bytes the lines in front of one have. -/
def offsetOf (lines : List Line) (index : Nat) : Nat :=
  ((lines.take index).map fun line => line.raw.length).sum

@[simp] theorem offsetOf_zero (lines : List Line) : offsetOf lines 0 = 0 := by
  simp [offsetOf]

@[simp] theorem offsetOf_cons_succ (line : Line) (lines : List Line) (index : Nat) :
    offsetOf (line :: lines) (index + 1) = line.raw.length + offsetOf lines index := by
  simp [offsetOf]

/-- The lines are a partition of the image that stands from an address on. -/
structure IsPartition (table : OpcodeTable) (order : ByteOrder) (address : Int)
    (image : List UInt8) (lines : List Line) : Prop where
  swept : sweep table order 0 address image = .ok lines
  whole : lines.flatMap Line.raw = image
  advances : ∀ line ∈ lines, 1 ≤ line.raw.length
  few : lines.length ≤ image.length
  places : ∀ index line, lines[index]? = some line →
    line.address = address + offsetOf lines index ∧
      lineAt table order image (offsetOf lines index) line.address = .ok (some line)
  behind : ∀ index, sweep table order 0 (address + offsetOf lines index)
    (image.drop (offsetOf lines index)) = .ok (lines.drop index)
  limited : ∀ limit : Int, 0 < limit →
    sweep table order limit address image = .ok (lines.take limit.toNat)

section Swept

variable {table : OpcodeTable} {order : ByteOrder} {address : Int} {image : List UInt8}
  {lines : List Line}

theorem length_pos_of_mem_swept (swept : Swept table order address image lines) :
    ∀ line ∈ lines, 1 ≤ line.raw.length := by
  induction swept with
  | nil => simp
  | cons _ _ holdsBytes _ inductionHypothesis =>
      rw [List.forall_mem_cons]
      exact ⟨List.length_pos_of_ne_nil holdsBytes, inductionHypothesis⟩

/-- A sweep ends, since each line uses up a byte of the image. -/
theorem length_le_of_swept (swept : Swept table order address image lines) :
    lines.length ≤ image.length := by
  induction swept with
  | nil => simp
  | cons _ cut holdsBytes _ inductionHypothesis =>
      have takes := List.length_pos_of_ne_nil holdsBytes
      rw [cut, List.length_cons, List.length_append]
      omega

/-- From each line on, what is left of the image is cut into the lines that are left. -/
theorem swept_drop (swept : Swept table order address image lines) (index : Nat) :
    Swept table order (address + offsetOf lines index) (image.drop (offsetOf lines index))
      (lines.drop index) := by
  induction swept generalizing index with
  | nil => simpa [offsetOf] using Swept.nil
  | @cons address opcode rest back line lines front cut holdsBytes later inductionHypothesis =>
      cases index with
      | zero => simpa using Swept.cons front cut holdsBytes later
      | succ index =>
          have left : (opcode :: rest).drop (line.raw.length + offsetOf lines index) =
              back.drop (offsetOf lines index) := by
            rw [← List.drop_drop, cut, List.drop_left]
          have moved : address + ((line.raw.length + offsetOf lines index : Nat) : Int) =
              address + line.raw.length + offsetOf lines index := by omega
          rw [offsetOf_cons_succ, left, moved, List.drop_succ_cons]
          exact inductionHypothesis index

theorem exists_front_of_getElem? (swept : Swept table order address image lines) {index : Nat}
    {line : Line} (isLine : lines[index]? = some line) :
    ∃ opcode rest, image.drop (offsetOf lines index) = opcode :: rest ∧
      frontLine table order opcode rest (address + offsetOf lines index) = .ok line := by
  have later := swept_drop swept index
  obtain ⟨below, rfl⟩ := List.getElem?_eq_some_iff.1 isLine
  rw [List.drop_eq_getElem_cons below] at later
  generalize image.drop (offsetOf lines index) = left at later ⊢
  cases later with
  | cons front _ _ _ => exact ⟨_, _, rfl, front⟩

theorem lineAt_of_front {opcode : UInt8} {rest : List UInt8} {place : Nat} {line : Line}
    (dropped : image.drop place = opcode :: rest)
    (front : frontLine table order opcode rest address = .ok line) :
    lineAt table order image place address = .ok (some line) := by
  have inside : ¬ (place : Int) < 0 := by omega
  rw [lineAt, if_neg inside, Int.toNat_natCast, dropped]
  simp only [front]
  rfl

end Swept

theorem isPartition_of_swept {table : OpcodeTable} {order : ByteOrder}
    (narrow : ∀ opcode form, table.form? opcode = some form → form.width ≤ 2) {address : Int}
    {image : List UInt8} {lines : List Line} (swept : Swept table order address image lines) :
    IsPartition table order address image lines := by
  constructor
  case swept => exact sweep_of_swept swept
  case whole => exact flatMap_raw_of_swept swept
  case advances => exact length_pos_of_mem_swept swept
  case few => exact length_le_of_swept swept
  case behind => exact fun index => sweep_of_swept (swept_drop swept index)
  case places =>
    intro index line isLine
    obtain ⟨opcode, rest, dropped, front⟩ := exists_front_of_getElem? swept isLine
    have sameAddress := (isFrontLine_of_frontLine narrow front).address_eq
    refine ⟨sameAddress, ?_⟩
    rw [sameAddress]
    exact lineAt_of_front dropped front
  case limited =>
    intro limit positive
    have allowed : lineLimit limit = some limit.toNat := by
      have one : max 1 limit = limit := by omega
      have limits : limit ≠ 0 := by omega
      rw [lineLimit, if_neg limits, one]
    rw [sweep, allowed, sweepFrom_of_swept swept, upTo]
    rfl

/-- The forms of a table are as wide as the patterns of its entries. -/
theorem width_le_two_of_entries {entries : List OpcodeTable.Entry} {table : OpcodeTable}
    (built : OpcodeTable.ofEntries entries = .ok table)
    (narrow : ∀ entry ∈ entries, widthOf entry.tokens.tail ≤ 2) (opcode : UInt8) (form : Form)
    (found : table.form? opcode = some form) : form.width ≤ 2 := by
  obtain ⟨_, holds⟩ := OpcodeTable.holds_of_ofEntries built
  obtain ⟨entry, member, _, tokens, _⟩ := holds.sound opcode form found
  have sameWidth : form.width = widthOf entry.tokens.tail := by
    rw [← tokens, form.width_eq]
    rfl
  rw [sameWidth]
  exact narrow entry member

/-- Whatever the configuration, the opcode table, the address and the image: a sweep comes to an end
and gives a partition of the image. -/
theorem sweep_isPartition (config : Config) {entries : List OpcodeTable.Entry} {table : OpcodeTable}
    (built : OpcodeTable.ofEntries entries = .ok table)
    (narrow : ∀ entry ∈ entries, widthOf entry.tokens.tail ≤ 2) (address : Int)
    (image : List UInt8) :
    ∃ lines, IsPartition table config.operandOrder address image lines := by
  have narrowForms := width_le_two_of_entries built narrow
  obtain ⟨lines, swept⟩ := exists_swept narrowForms config.operandOrder address image
  exact ⟨lines, isPartition_of_swept narrowForms swept⟩

/-- A byte without a form, an instruction whose two immediate bytes are two operands, and an
instruction that the end of the image cuts off. -/
theorem sweep_isPartition_of_odd_image :
    ∃ table, OpcodeTable.ofEntries
        [⟨0x80, ["pair", "d8", "D8"], 3, 10⟩, ⟨0x3E, ["mvi", "a", "d8"], 2, 7⟩] = .ok table ∧
      ∃ lines, IsPartition table .little 0x100 [0x00, 0x80, 0x01, 0x02, 0x3E] lines ∧
        lines.map (fun line => (line.address, line.text)) =
          [(0x100, "DB 00H"), (0x101, "PAIR 201H,201H"), (0x104, "DB 3EH")] := by
  obtain ⟨table, built, lines, swept, shown⟩ : ∃ table, OpcodeTable.ofEntries
        [⟨0x80, ["pair", "d8", "D8"], 3, 10⟩, ⟨0x3E, ["mvi", "a", "d8"], 2, 7⟩] = .ok table ∧
      ∃ lines, Swept table .little 0x100 [0x00, 0x80, 0x01, 0x02, 0x3E] lines ∧
        lines.map (fun line => (line.address, line.text)) =
          [(0x100, "DB 00H"), (0x101, "PAIR 201H,201H"), (0x104, "DB 3EH")] :=
    ⟨_, rfl, [_, _, _], .cons rfl rfl (List.cons_ne_nil _ _) (.cons rfl rfl (List.cons_ne_nil _ _)
      (.cons rfl rfl (List.cons_ne_nil _ _) .nil)), rfl⟩
  obtain ⟨others, partition⟩ := sweep_isPartition { Config.standard with operandOrder := .little }
    built (by decide) 0x100 [0x00, 0x80, 0x01, 0x02, 0x3E]
  cases (sweep_of_swept swept).symm.trans partition.swept
  exact ⟨table, built, lines, partition, shown⟩

end Intel8085.Disassembly
