import Mathlib.Algebra.Order.BigOperators.Group.List
import Intel8085.Proofs.Assembly.LabelRules
import Intel8085.Proofs.Assembly.ListingTexts

/-!
# The labels that a listing shows

Labels that stand on lines of their own wait for the next statement that emits bytes, and only the
last of them gets into the listing: the record of an address shows the last label that has this
address (`listing_showsLabels`).  A label is lost exactly when a later line defines another label
before a byte is emitted.
-/

set_option autoImplicit false

namespace Intel8085.Assembly

open Intel8085.Text Intel8085.Source Intel8085.Disassembly

/-! ## Which label is shown -/

/-- The label of a statement as it is written, if it has the address. -/
def labelAt (program : Program) (address : Nat) (one : NumberedStatement) : Option String :=
  (one.statement.label.filter fun label => program.labels.lookup label.name == some address).map
    Label.written

/-- The last label of a text that has an address, or nothing if there is none. -/
def shownAt (source : List Char) (program : Program) (address : Nat) : String :=
  ((statements source).filterMap (labelAt program address)).getLastD ""

/-- A byte is emitted on the line with this number or behind it. -/
def IsEmittedFrom (source : List Char) (number : Nat) : Prop :=
  ∃ statement ∈ emitting (statements source), number ≤ statement.1

/-- Every label with a byte behind it stands in the record of its address. -/
def CarriesLabels (source : List Char) (program : Program) : Prop :=
  ∀ number written, DefinesLabel source number written → IsEmittedFrom source number →
    ∃ address record, program.labels.lookup (upperCase written) = some address ∧
      program.listing[address]? = some record ∧ written.toList <:+: record.label.toList

/-- A line behind this one defines a label with the same address. -/
def IsOvertaken (source : List Char) (program : Program) (number address : Nat) : Prop :=
  ∃ later other, number < later ∧ DefinesLabel source later other ∧
    program.labels.lookup (upperCase other) = some address

/-- The record of each address shows the last label that has this address, so a label is shown in the
record of its address exactly when none overtakes it. -/
structure ShowsLabels (source : List Char) (program : Program) : Prop where
  column : program.listing.map ListingRecord.label =
    (List.range program.code.length).map (shownAt source program)
  shown : ∀ number written, DefinesLabel source number written → IsEmittedFrom source number →
    ∃ address record, program.labels.lookup (upperCase written) = some address ∧
      program.listing[address]? = some record ∧ record.address = hexText 4 address ∧
      (record.label = written ↔ ¬ IsOvertaken source program number address)

/-! ## The column of labels -/

/-- The last label that has an address, or `waiting` if there is none. -/
def lastAt (addressed : List (Label × Nat)) (waiting : String) (address : Nat) : String :=
  ((addressed.filter fun entry => entry.2 == address).map fun entry => entry.1.written).getLastD
    waiting

/-- The label that waits for the next byte, and nothing for the bytes behind it. -/
def waitingAt (size : Nat) (pending : String) (address : Nat) : String :=
  if address = size then pending else ""

theorem lastAt_cons (entry : Label × Nat) (others : List (Label × Nat)) (waiting : String)
    (address : Nat) :
    lastAt (entry :: others) waiting address =
      lastAt others (if entry.2 = address then entry.1.written else waiting) address := by
  rw [lastAt, List.filter_cons]
  by_cases here : entry.2 = address
  · simp only [here, beq_self_eq_true, if_true, List.map_cons, List.getLastD_cons]
    rfl
  · simp only [here, beq_eq_false_iff_ne.2 here, Bool.false_eq_true, if_false]
    rfl

theorem lastAt_of_forall_ne {addressed : List (Label × Nat)} {address : Nat}
    (elsewhere : ∀ entry ∈ addressed, entry.2 ≠ address) (waiting : String) :
    lastAt addressed waiting address = waiting := by
  have empty : (addressed.filter fun entry => entry.2 == address) = [] := by
    rw [List.filter_eq_nil_iff]
    intro entry member
    simpa using elsewhere entry member
  rw [lastAt, empty]
  rfl

/-- The labels that statements define, with their addresses, and the column of labels in which the
last of those at an address is shown. -/
structure AreShown (size : Nat) (pending : String) (numbered : List NumberedStatement)
    (blocks : List Block) (labels : List (String × Nat)) (addressed : List (Label × Nat)) :
    Prop where
  defined : addressed.map Prod.fst = numbered.filterMap fun one => one.statement.label
  named : addressed.map (fun entry => (entry.1.name, entry.2)) = labels
  behind : ∀ entry ∈ addressed, size ≤ entry.2
  column : (blocks.flatMap fun block =>
      block.label :: List.replicate (block.bytes.length - 1) "") =
    (List.range' size (blocks.flatMap Block.bytes).length).map fun address =>
      lastAt addressed (waitingAt size pending address) address

section Shown

variable {size : Nat} {pending : String} {numbered : List NumberedStatement} {blocks : List Block}
  {labels : List (String × Nat)} {addressed : List (Label × Nat)}

/-- The label of a statement goes in front of those of the statements behind it. -/
theorem AreShown.define {first : NumberedStatement} {others : List NumberedStatement}
    (later : AreShown size (shownLabel pending first.statement.label) others blocks labels
      addressed) :
    ∃ all, AreShown size pending (first :: others) blocks
      (definedAt size first.statement.label ++ labels) all := by
  have column := later.column
  cases isLabel : first.statement.label with
  | none =>
      rw [isLabel] at column
      refine ⟨addressed, ?_, later.named, later.behind, column⟩
      rw [List.filterMap_cons, isLabel, later.defined]
  | some label =>
      rw [isLabel] at column
      refine ⟨(label, size) :: addressed, ?_, ?_, ?_, ?_⟩
      · rw [List.filterMap_cons, isLabel, List.map_cons, later.defined]
      · rw [List.map_cons, later.named]
        rfl
      · exact List.forall_mem_cons.2 ⟨Nat.le_refl size, later.behind⟩
      · rw [column]
        apply List.map_congr_left
        intro address _
        rw [lastAt_cons]
        by_cases here : address = size
        · subst here
          simp [waitingAt, shownLabel]
        · have other : ¬ size = address := fun same => here same.symm
          simp [waitingAt, here, other]

/-- A block shows the label that waits for it, and the bytes behind its first one show none. -/
theorem AreShown.block {block : Block} (holdsBytes : block.bytes ≠ [])
    (later : AreShown (size + block.bytes.length) "" numbered blocks labels addressed) :
    AreShown size block.label numbered (block :: blocks) labels addressed := by
  have elsewhere {address : Nat} (inside : address < size + block.bytes.length) :
      ∀ entry ∈ addressed, entry.2 ≠ address := by
    intro entry member same
    have behind := later.behind entry member
    omega
  have positive : 0 < block.bytes.length := List.length_pos_iff.2 holdsBytes
  obtain ⟨count, isCount⟩ : ∃ count, block.bytes.length = count + 1 :=
    ⟨block.bytes.length - 1, by omega⟩
  constructor
  case defined => exact later.defined
  case named => exact later.named
  case behind =>
    intro entry member
    exact Nat.le_trans (Nat.le_add_right size _) (later.behind entry member)
  case column =>
    have heading : block.label :: List.replicate (block.bytes.length - 1) "" =
        (List.range' size block.bytes.length).map fun address =>
          lastAt addressed (waitingAt size block.label address) address := by
      rw [isCount, List.range'_succ, List.map_cons, lastAt_of_forall_ne (elsewhere (by omega)),
        waitingAt, if_pos rfl, Nat.add_sub_cancel]
      congr 1
      symm
      rw [List.eq_replicate_iff, List.length_map, List.length_range']
      refine ⟨rfl, ?_⟩
      intro shown member
      obtain ⟨address, inRange, rfl⟩ := List.mem_map.1 member
      rw [List.mem_range'_1] at inRange
      rw [lastAt_of_forall_ne (elsewhere (by omega)), waitingAt, if_neg (by omega)]
    rw [List.flatMap_cons, heading, later.column, List.flatMap_cons, List.length_append,
      ← List.range'_append_1, List.map_append]
    congr 1
    apply List.map_congr_left
    intro address inRange
    rw [List.mem_range'_1] at inRange
    have notHere : address ≠ size := by omega
    simp [waitingAt, notHere]

theorem exists_areShown_of_lays {table : OpcodeTable} {order : ByteOrder} {declared : Declarations}
    (lays : Lays table order declared size pending numbered blocks labels) :
    ∃ addressed, AreShown size pending numbered blocks labels addressed := by
  induction lays with
  | nil => exact ⟨[], rfl, rfl, fun entry member => absurd member List.not_mem_nil, rfl⟩
  | bare _ _ inductionHypothesis =>
      obtain ⟨addressed, later⟩ := inductionHypothesis
      exact later.define
  | block _ emitted _ inductionHypothesis =>
      obtain ⟨addressed, later⟩ := inductionHypothesis
      have here := later.block (bytes_ne_nil_of_blockOf emitted)
      rw [label_of_blockOf emitted] at here
      exact here.define

end Shown

/-! ## The listing of a program -/

theorem map_label_listed {position : PlacedBlock} {bytes : List UInt8} (holdsBytes : bytes ≠ [])
    (complete : bytes.length = position.block.bytes.length) :
    (position.listed bytes).map ListingRecord.label =
      position.block.label :: List.replicate (position.block.bytes.length - 1) "" := by
  obtain ⟨first, rest, rfl⟩ := List.exists_cons_of_ne_nil holdsBytes
  obtain ⟨others, listed, continues⟩ := position.listed_cons complete
  have length := position.length_listed complete
  rw [listed, List.length_cons, List.length_cons, Nat.add_right_cancel_iff] at length
  have none : others.map ListingRecord.label = List.replicate others.length "" :=
    List.map_eq_replicate_iff.2 fun other member => (continues other member).label
  rw [listed, List.map_cons, none, length, ← complete]
  rfl

theorem map_label_listing {order : ByteOrder} {declared : Declarations} {program : Program}
    {blocks : List Block} (linked : IsLinked order declared program blocks)
    (holdBytes : ∀ block ∈ blocks, block.bytes ≠ []) :
    program.listing.map ListingRecord.label = blocks.flatMap fun block =>
      block.label :: List.replicate (block.bytes.length - 1) "" := by
  rw [listing_eq_flatMap linked, List.map_flatMap, ← map_block_placed 0 blocks, List.flatMap_map,
    map_block_placed]
  apply List.flatMap_congr
  intro position member
  have complete := length_linked_of_placed linked member
  have holdsBytes : position.block.linked order program.labels ≠ [] := by
    rw [← List.length_pos_iff, complete, List.length_pos_iff]
    exact holdBytes position.block (mem_of_mem_placed member)
  exact map_label_listed holdsBytes complete

theorem sizeBefore_le (line : Nat) (blocks : List Block) :
    sizeBefore line blocks ≤ (blocks.flatMap Block.bytes).length := by
  have fewer : (blocks.filter fun block => block.line < line).Sublist blocks := List.filter_sublist
  rw [sizeBefore, List.length_flatMap]
  exact (fewer.map fun block => block.bytes.length).sum_le_sum fun _ _ => Nat.zero_le _

theorem sizeBefore_add_le {line : Nat} {block : Block} {blocks : List Block}
    (member : block ∈ blocks) (notEarlier : ¬ block.line < line) :
    sizeBefore line blocks + block.bytes.length ≤ (blocks.flatMap Block.bytes).length := by
  obtain ⟨front, back, rfl⟩ := List.append_of_mem member
  have inFront := sizeBefore_le line front
  have inBack := sizeBefore_le line back
  have others : sizeBefore line (front ++ block :: back) =
      sizeBefore line front + sizeBefore line back := by
    simp [sizeBefore, notEarlier]
  rw [others, List.flatMap_append, List.flatMap_cons, List.length_append, List.length_append]
  omega

section Assembled

variable {order : ByteOrder} {source : List Char} {program : Program}

/-- The addresses of labels are those that the labels of the program are looked up by. -/
theorem lastAt_eq_shownAt {size : Nat} {pending : String} {blocks : List Block}
    {addressed : List (Label × Nat)} (distinct : (labelNames (statements source)).Nodup)
    (names : program.labels.map Prod.fst = labelNames (statements source))
    (shown : AreShown size pending (statements source) blocks program.labels addressed)
    (address : Nat) : lastAt addressed "" address = shownAt source program address := by
  have found : ∀ entry ∈ addressed, program.labels.lookup entry.1.name = some entry.2 := by
    intro entry member
    apply lookup_eq_some_of_mem (by rw [names]; exact distinct)
    rw [← shown.named]
    exact List.mem_map_of_mem member
  have written : (statements source).filterMap (labelAt program address) =
      ((addressed.map Prod.fst).filter fun label =>
        program.labels.lookup label.name == some address).map Label.written := by
    rw [shown.defined, List.filter_filterMap, List.map_filterMap]
    rfl
  rw [shownAt, written, List.filter_map, List.map_map, lastAt]
  congr 2
  apply List.filter_congr
  intro entry member
  rw [Function.comp_apply, found entry member]
  rfl

theorem column_of_assemble (assembles : assemble .standard order source = .ok program) :
    program.listing.map ListingRecord.label =
      (List.range program.code.length).map (shownAt source program) := by
  obtain ⟨names, distinct, _⟩ := labels_of_assemble assembles
  obtain ⟨declared, blocks, linked, lays⟩ := exists_lays_of_assemble assembles
  obtain ⟨addressed, shown⟩ := exists_areShown_of_lays lays
  have holdBytes : ∀ block ∈ blocks, block.bytes ≠ [] := by
    intro block member
    obtain ⟨_, _, _, _, emitted⟩ := block_mem_of_lays lays member
    exact bytes_ne_nil_of_blockOf emitted
  rw [map_label_listing linked holdBytes, shown.column, length_code linked, List.range_eq_range']
  apply List.map_congr_left
  intro address _
  have none : waitingAt 0 "" address = "" := ite_self ""
  rw [none, lastAt_eq_shownAt distinct names shown]

/-- Where bytes are still emitted, fewer bytes are emitted on earlier lines than on all. -/
theorem sizeBefore_lt {number : Nat} (assembles : assemble .standard order source = .ok program)
    (emitted : IsEmittedFrom source number) : program.sizeBefore number < program.code.length := by
  obtain ⟨declared, blocks, linked, lays⟩ := exists_lays_of_assemble assembles
  obtain ⟨statement, isEmitting, behind⟩ := emitted
  obtain ⟨block, member, before, label, isBlock⟩ :=
    exists_of_mem_left (forall₂_emitting_of_lays lays) isEmitting
  have line := (line_and_text_of_blockOf isBlock).1
  have positive := List.length_pos_iff.2 (bytes_ne_nil_of_blockOf isBlock)
  have bound := sizeBefore_add_le member (by omega : ¬ block.line < number)
  rw [Program.sizeBefore, linked.sameBlocks, map_block_placed, length_code linked]
  omega

theorem labelAt_eq_some_iff {address : Nat} {one : NumberedStatement} {written : String} :
    labelAt program address one = some written ↔
      one.statement.label = some { written } ∧
        program.labels.lookup (upperCase written) = some address := by
  rw [labelAt, Option.map_eq_some_iff]
  constructor
  · rintro ⟨label, filtered, rfl⟩
    rw [Option.filter_eq_some_iff, beq_iff_eq] at filtered
    exact filtered
  · rintro ⟨isLabel, found⟩
    refine ⟨{ written }, ?_, rfl⟩
    rw [Option.filter_eq_some_iff, beq_iff_eq]
    exact ⟨isLabel, found⟩

/-- The statement of a line, with the statements in front of it and behind it. -/
theorem exists_split_of_definesLabel {number : Nat} {written : String}
    (defines : DefinesLabel source number written) :
    ∃ front one back, statements source = front ++ one :: back ∧ one.line = number ∧
      one.statement.label = some { written } ∧
      (∀ other ∈ statements source, other ∈ back ↔ number < other.line) := by
  obtain ⟨one, member, rfl, isLabel⟩ := definesLabel_iff.1 defines
  obtain ⟨front, back, whole⟩ := List.append_of_mem member
  have increasing := pairwise_line_statements source
  rw [whole, List.pairwise_append, List.pairwise_cons] at increasing
  obtain ⟨_, ⟨later, _⟩, earlier⟩ := increasing
  refine ⟨front, one, back, whole, rfl, isLabel, fun other isStatement => ⟨later other, ?_⟩⟩
  intro behind
  rw [whole, List.mem_append, List.mem_cons] at isStatement
  rcases isStatement with inFront | rfl | inBack
  · have before := earlier other inFront one List.mem_cons_self
    omega
  · omega
  · exact inBack

/-- A line defines the last label with its address exactly when no later line overtakes it. -/
theorem shownAt_eq_iff {number : Nat} {written : String} {address : Nat}
    (distinct : (labelNames (statements source)).Nodup)
    (defines : DefinesLabel source number written)
    (found : program.labels.lookup (upperCase written) = some address) :
    shownAt source program address = written ↔ ¬ IsOvertaken source program number address := by
  obtain ⟨front, one, back, whole, _, isLabel, behind⟩ := exists_split_of_definesLabel defines
  have isStatement : ∀ other ∈ back, other ∈ statements source := by
    rw [whole]
    exact fun other inBack => List.mem_append_right front (List.mem_cons_of_mem one inBack)
  have here := labelAt_eq_some_iff.2 ⟨isLabel, found⟩
  rw [shownAt, whole, List.filterMap_append, List.filterMap_cons_some here,
    List.getLastD_eq_getLast?, List.getLast?_append_cons, List.getLast?_cons, Option.getD_some]
  cases last : (back.filterMap (labelAt program address)).getLast? with
  | none =>
      rw [List.getLast?_eq_none_iff, List.filterMap_eq_nil_iff] at last
      refine iff_of_true rfl ?_
      rintro ⟨later, other, after, definesOther, sameAddress⟩
      obtain ⟨two, member, rfl, isOther⟩ := definesLabel_iff.1 definesOther
      have none := last two ((behind two member).2 after)
      rw [labelAt_eq_some_iff.2 ⟨isOther, sameAddress⟩] at none
      cases none
  | some other =>
      obtain ⟨two, inBack, isAt⟩ := List.mem_filterMap.1 (List.mem_of_getLast? last)
      obtain ⟨isOther, sameAddress⟩ := labelAt_eq_some_iff.1 isAt
      have member := isStatement two inBack
      refine iff_of_false ?_ (not_not.2 ⟨two.line, other, (behind two member).1 inBack,
        definesLabel_of_label member isOther, sameAddress⟩)
      -- two lines never define the same name
      intro (same : other = written)
      subst same
      have again : upperCase other ∈ labelNames back :=
        List.mem_filterMap.2 ⟨two, inBack, by rw [isOther]; rfl⟩
      rw [whole, labelNames, List.filterMap_append, List.nodup_append] at distinct
      have tail := distinct.2.1
      rw [List.filterMap_cons, isLabel] at tail
      exact (List.nodup_cons.1 tail).1 again

end Assembled

/-- For every configuration and source text that assembles, the listing shows at each address the last
label that has it. -/
theorem listing_showsLabels (config : Config) (source : List Char) {program : Program}
    (assembles : assemble .standard config.operandOrder source = .ok program) :
    ShowsLabels source program := by
  have column := column_of_assemble assembles
  obtain ⟨_, distinct, addresses⟩ := labels_of_assemble assembles
  obtain ⟨_, _, linked, _⟩ := exists_lays_of_assemble assembles
  constructor
  case column => exact column
  case shown =>
    intro number written defines emitted
    obtain ⟨one, member, rfl, isLabel⟩ := definesLabel_iff.1 defines
    have found := addresses one member _ isLabel
    have inside := sizeBefore_lt assembles emitted
    have length := congrArg List.length column
    rw [List.length_map, List.length_map, List.length_range] at length
    have label := congrArg (fun column => column[program.sizeBefore one.line]?) column
    have address := congrArg (fun column => column[program.sizeBefore one.line]?)
      (map_address_listing linked)
    simp only [List.getElem?_map, List.getElem?_range inside, Option.map_some,
      Option.map_eq_some_iff] at label address
    obtain ⟨record, isRecord, isShown⟩ := label
    obtain ⟨_, alsoRecord, isAddress⟩ := address
    rw [isRecord] at alsoRecord
    cases alsoRecord
    refine ⟨program.sizeBefore one.line, record, found, isRecord, isAddress, ?_⟩
    rw [isShown]
    exact shownAt_eq_iff distinct defines found

/-- A label of an instruction, and one that waits for an instruction two lines below. -/
theorem listing_showsLabels_of_waiting :
    ∃ program,
      assemble .standard Config.standard.operandOrder "X: NOP\nY:\n\n HLT".toList = .ok program ∧
      program.listing.map ListingRecord.label = ["X", "Y"] ∧
      ShowsLabels "X: NOP\nY:\n\n HLT".toList program := by
  obtain ⟨program, assembles, column⟩ : ∃ program,
      assemble .standard Config.standard.operandOrder "X: NOP\nY:\n\n HLT".toList = .ok program ∧
        program.listing.map ListingRecord.label = ["X", "Y"] := ⟨_, rfl, rfl⟩
  exact ⟨program, assembles, column, listing_showsLabels .standard _ assembles⟩

/-- A label is lost when another one follows on a line of its own before a byte is emitted. -/
theorem label_lost_in_front_of_label :
    ∃ program, assemble .standard Config.standard.operandOrder "X:\nY: NOP".toList = .ok program ∧
      program.labels = [("X", 0), ("Y", 0)] ∧
      program.listing.map ListingRecord.label = ["Y"] ∧
      ¬ CarriesLabels "X:\nY: NOP".toList program := by
  obtain ⟨program, assembles, labels, column⟩ : ∃ program,
      assemble .standard Config.standard.operandOrder "X:\nY: NOP".toList = .ok program ∧
        program.labels = [("X", 0), ("Y", 0)] ∧
        program.listing.map ListingRecord.label = ["Y"] := ⟨_, rfl, rfl, rfl⟩
  refine ⟨program, assembles, labels, column, ?_⟩
  intro carries
  have defines : DefinesLabel "X:\nY: NOP".toList 1 "X" :=
    definesLabel_iff.2 ⟨⟨1, _⟩, List.mem_cons_self, rfl, rfl⟩
  have emitted : IsEmittedFrom "X:\nY: NOP".toList 1 :=
    ⟨(2, _), List.mem_singleton.2 rfl, by decide⟩
  obtain ⟨address, record, found, isRecord, carried⟩ := carries 1 "X" defines emitted
  rw [labels] at found
  cases (Option.some.inj found : 0 = address)
  have label := congrArg (fun column => column[0]?) column
  simp only [List.getElem?_map, isRecord] at label
  rw [(Option.some.inj label : record.label = "Y")] at carried
  revert carried
  decide

end Intel8085.Assembly
