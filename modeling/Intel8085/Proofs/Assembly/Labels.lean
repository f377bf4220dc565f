import Intel8085.Proofs.Assembly.Layout

/-!
# The labels of a program

Every label that is declared has an identifier for its name that is no reserved word, and no two
have the same name.  Statements stand on lines with increasing numbers, so when a label is defined
the bytes laid out are those of the blocks of earlier lines (`labels_of_assemble`).
-/

set_option autoImplicit false

namespace Intel8085.Assembly

open Intel8085.Text Intel8085.Source

/-! ## Names -/

/-- The names of declared labels are identifiers, not reserved, and distinct. -/
structure AreProper (table : OpcodeTable) (declared : Declarations) : Prop where
  identifier : ∀ name ∈ declared.map Prod.fst, isIdentifier name = true
  unreserved : ∀ name ∈ declared.map Prod.fst, isReserved table name = false
  distinct : (declared.map Prod.fst).Nodup

theorem areProper_of_declare {table : OpcodeTable} {declared result : Declarations}
    {numbered : NumberedStatement} (proper : AreProper table declared)
    (success : declare table declared numbered = .ok result) : AreProper table result := by
  rcases declare_cases success with ⟨_, rfl⟩ | ⟨label, _, identifier, unreserved, fresh, rfl⟩
  · exact proper
  · have isNew : label.name ∉ declared.map Prod.fst := by
      rw [← isSome_lookup_iff, fresh]
      decide
    exact {
      identifier := List.forall_mem_cons.2 ⟨identifier, proper.identifier⟩
      unreserved := List.forall_mem_cons.2 ⟨unreserved, proper.unreserved⟩
      distinct := List.nodup_cons.2 ⟨isNew, proper.distinct⟩ }

theorem areProper_of_foldlM_declare {table : OpcodeTable} {numbered : List NumberedStatement}
    {declared result : Declarations} (proper : AreProper table declared)
    (success : numbered.foldlM (declare table) declared = .ok result) : AreProper table result := by
  induction numbered generalizing declared with
  | nil =>
      cases pure_eq_ok_iff.1 success
      exact proper
  | cons first others inductionHypothesis =>
      rw [List.foldlM_cons, bind_eq_ok_iff] at success
      obtain ⟨middle, declaredFirst, rest⟩ := success
      exact inductionHypothesis (areProper_of_declare proper declaredFirst) rest

theorem areProper_of_declarations {table : OpcodeTable} {numbered : List NumberedStatement}
    {declared : Declarations} (declares : declarations table numbered = .ok declared) :
    AreProper table declared := by
  apply areProper_of_foldlM_declare _ declares
  exact {
    identifier := fun _ member => absurd member List.not_mem_nil
    unreserved := fun _ member => absurd member List.not_mem_nil
    distinct := List.nodup_nil }

/-- No two statements of a text whose labels can be declared define labels of one name. -/
theorem nodup_labelNames {table : OpcodeTable} {numbered : List NumberedStatement}
    {declared : Declarations} (declares : declarations table numbered = .ok declared) :
    (labelNames numbered).Nodup := by
  have distinct := (areProper_of_declarations declares).distinct
  rw [map_fst_of_foldlM_declare declares, List.map_nil, List.append_nil] at distinct
  exact (List.reverse_perm _).nodup_iff.1 distinct

/-! ## Addresses -/

/-- The number of bytes in the blocks of earlier lines. -/
def sizeBefore (line : Nat) (blocks : List Block) : Nat :=
  ((blocks.filter fun block => block.line < line).map fun block => block.bytes.length).sum

def Program.sizeBefore (program : Program) (line : Nat) : Nat :=
  Assembly.sizeBefore line (program.blocks.map PlacedBlock.block)

theorem sizeBefore_eq_zero {line : Nat} {blocks : List Block}
    (later : ∀ block ∈ blocks, line ≤ block.line) : sizeBefore line blocks = 0 := by
  have noneBefore : (blocks.filter fun block => block.line < line) = [] := by
    rw [List.filter_eq_nil_iff]
    intro block member
    have bound := later block member
    rw [decide_eq_true_eq]
    omega
  rw [sizeBefore, noneBefore]
  rfl

theorem sizeBefore_cons_of_lt {line : Nat} {block : Block} (earlier : block.line < line)
    (others : List Block) :
    sizeBefore line (block :: others) = block.bytes.length + sizeBefore line others := by
  simp only [sizeBefore, List.filter_cons, earlier, decide_true, if_true, List.map_cons,
    List.sum_cons]

theorem sizeBefore_cons_of_not_lt {line : Nat} {block : Block} (notEarlier : ¬ block.line < line)
    (others : List Block) : sizeBefore line (block :: others) = sizeBefore line others := by
  simp only [sizeBefore, List.filter_cons, notEarlier, decide_false, Bool.false_eq_true, if_false]

theorem pairwise_line_statements (source : List Char) :
    (statements source).Pairwise fun first second => first.line < second.line := by
  have counted : ((lines source).zipIdx.map Prod.snd).Pairwise (· < ·) := by
    rw [List.zipIdx_map_snd]
    exact List.pairwise_lt_range'
  rw [statements, List.pairwise_filterMap]
  apply (List.pairwise_map.1 counted).imp
  rintro ⟨line, index⟩ ⟨otherLine, otherIndex⟩ before first isFirst second isSecond
  obtain ⟨statement, _, rfl⟩ := Option.map_eq_some_iff.1 isFirst
  obtain ⟨otherStatement, _, rfl⟩ := Option.map_eq_some_iff.1 isSecond
  exact Nat.succ_lt_succ before

theorem lookup_eq_some_of_mem {Content : Type} {entries : List (String × Content)} {name : String}
    {content : Content} (distinct : (entries.map Prod.fst).Nodup)
    (member : (name, content) ∈ entries) : entries.lookup name = some content := by
  induction entries with
  | nil => exact absurd member List.not_mem_nil
  | cons entry others inductionHypothesis =>
      rw [List.map_cons, List.nodup_cons] at distinct
      rcases List.mem_cons.1 member with rfl | later
      · exact List.lookup_cons_self
      · have different : (name == entry.1) = false := by
          rw [beq_eq_false_iff_ne]
          rintro rfl
          exact distinct.1 (List.mem_map.2 ⟨_, later, rfl⟩)
        rw [List.lookup_cons, different]
        exact inductionHypothesis distinct.2 later

section Lays

variable {table : OpcodeTable} {order : ByteOrder} {declared : Declarations} {size : Nat}
  {pending : String} {numbered : List NumberedStatement} {blocks : List Block}
  {labels : List (String × Nat)}
  (lays : Lays table order declared size pending numbered blocks labels)
include lays

theorem line_mem_of_lays {block : Block} (member : block ∈ blocks) :
    ∃ one ∈ numbered, block.line = one.line := by
  induction lays with
  | nil => exact absurd member List.not_mem_nil
  | bare _ _ inductionHypothesis =>
      obtain ⟨one, isOther, same⟩ := inductionHypothesis member
      exact ⟨one, List.mem_cons_of_mem _ isOther, same⟩
  | block _ emitted _ inductionHypothesis =>
      rcases List.mem_cons.1 member with rfl | isLater
      · exact ⟨_, List.mem_cons_self, (line_and_text_of_blockOf emitted).1⟩
      · obtain ⟨one, isOther, same⟩ := inductionHypothesis isLater
        exact ⟨one, List.mem_cons_of_mem _ isOther, same⟩

theorem sizeBefore_of_lays {line : Nat} (behind : ∀ one ∈ numbered, line < one.line) :
    sizeBefore line blocks = 0 := by
  apply sizeBefore_eq_zero
  intro block member
  obtain ⟨one, isStatement, same⟩ := line_mem_of_lays lays member
  rw [same]
  exact Nat.le_of_lt (behind one isStatement)

/-- A label that a statement defines has the address behind all blocks of earlier lines. -/
theorem mem_labels_of_lays
    (increasing : numbered.Pairwise fun first second => first.line < second.line)
    {one : NumberedStatement} (member : one ∈ numbered) {label : Label}
    (defines : one.statement.label = some label) :
    (label.name, size + sizeBefore one.line blocks) ∈ labels := by
  induction lays with
  | nil => exact absurd member List.not_mem_nil
  | bare _ othersLay inductionHypothesis =>
      obtain ⟨behind, othersIncreasing⟩ := List.pairwise_cons.1 increasing
      rw [List.mem_append]
      rcases List.mem_cons.1 member with rfl | isOther
      · left
        rw [defines, sizeBefore_of_lays othersLay behind]
        exact List.mem_cons_self
      · exact Or.inr (inductionHypothesis othersIncreasing isOther)
  | @block size pending first others instruction block blocks labels _ emitted othersLay
      inductionHypothesis =>
      obtain ⟨behind, othersIncreasing⟩ := List.pairwise_cons.1 increasing
      have sameLine := (line_and_text_of_blockOf emitted).1
      rw [List.mem_append]
      rcases List.mem_cons.1 member with rfl | isOther
      · left
        have notEarlier : ¬ block.line < one.line := by omega
        rw [defines, sizeBefore_cons_of_not_lt notEarlier, sizeBefore_of_lays othersLay behind]
        exact List.mem_cons_self
      · right
        have earlier : block.line < one.line := by
          rw [sameLine]
          exact behind one isOther
        rw [sizeBefore_cons_of_lt earlier, ← Nat.add_assoc]
        exact inductionHypothesis othersIncreasing isOther

end Lays

/-- The labels of a program are those that its statements define, each once, and each stands for the
number of bytes that statements on earlier lines emit. -/
theorem labels_of_assemble {order : ByteOrder} {source : List Char} {program : Program}
    (assembles : assemble .standard order source = .ok program) :
    program.labels.map Prod.fst = labelNames (statements source) ∧
      (labelNames (statements source)).Nodup ∧
      ∀ one ∈ statements source, ∀ label, one.statement.label = some label →
        program.labels.lookup label.name = some (program.sizeBefore one.line) := by
  obtain ⟨declared, blocks, declares, lays, _, sameBlocks, _⟩ :=
    assemble_standard_eq_ok_iff.1 assembles
  have names := map_fst_of_lays lays
  have distinct := nodup_labelNames declares
  refine ⟨names, distinct, ?_⟩
  intro one member label defines
  have listed := mem_labels_of_lays lays (pairwise_line_statements source) member defines
  rw [Nat.zero_add] at listed
  rw [Program.sizeBefore, sameBlocks, map_block_placed]
  exact lookup_eq_some_of_mem (by rw [names]; exact distinct) listed

end Intel8085.Assembly
