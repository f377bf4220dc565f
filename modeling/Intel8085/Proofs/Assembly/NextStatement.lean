import Intel8085.Proofs.Assembly.Extensions
import Intel8085.Proofs.Source.OperandLines

/-!
# Programs with one more statement

A statement behind a source text that assembles is laid out at the address where the program ends.
When it defines no label, the longer text fails as this statement fails, or else the bytes of its
block come behind those of the program (`exists_awaitsStatement`).
-/

set_option autoImplicit false

namespace Intel8085.Assembly

open Intel8085.Source

theorem placed_append (start : Nat) (front back : List Block) :
    placed start (front ++ back) =
      placed start front ++ placed (start + (front.flatMap Block.bytes).length) back := by
  induction front generalizing start with
  | nil => rfl
  | cons first others inductionHypothesis =>
      rw [List.cons_append, placed, inductionHypothesis, placed, List.flatMap_cons,
        List.length_append, Nat.add_assoc]
      rfl

/-- The size of a layout is the number of bytes in its blocks. -/
def Layout.IsSized (layout : Layout) : Prop :=
  layout.size = (layout.blocks.map fun placed => placed.block.bytes.length).sum

theorem isSized_of_layoutOf {table : OpcodeTable} {order : ByteOrder} {declared : Declarations}
    {numbered : List NumberedStatement} {layout : Layout}
    (laid : layoutOf table order declared numbered = .ok layout) : layout.IsSized := by
  have keeps : ∀ one ∈ numbered, ∀ before after : Layout,
      lay table order declared before one = .ok after → before.IsSized → after.IsSized := by
    intro one _ before after step sized
    cases hasInstruction : one.statement.instruction with
    | none =>
        rw [lay_of_bare hasInstruction, define_eq] at step
        cases step
        exact sized
    | some instruction =>
        rw [lay_of_instruction hasInstruction, bind_eq_ok_iff] at step
        obtain ⟨block, _, appended⟩ := step
        cases pure_eq_ok_iff.1 appended
        rw [Layout.IsSized] at sized
        rw [define_eq, Layout.append, Layout.IsSized, List.map_cons, List.sum_cons, ← sized]
        exact Nat.add_comm _ _
  exact holds_of_foldlM keeps laid rfl

section Laid

variable {order : ByteOrder} {declared : Declarations} {numbered : List NumberedStatement}
  {layout : Layout}

theorem programOf_concat (declares : declarations .standard numbered = .ok declared)
    (laid : layoutOf .standard order declared numbered = .ok layout) (line : Nat)
    (instruction : Instruction) :
    programOf .standard order (numbered ++ [unlabelled line instruction]) =
      blockOf .standard order declared line layout.size layout.pending instruction >>=
        fun block => link order (layout.append block) := by
  have declaresLonger :
      declarations .standard (numbered ++ [unlabelled line instruction]) = .ok declared := by
    rw [declarations, List.foldlM_append]
    exact congrArg (· >>= _) declares
  have laidLonger : layoutOf .standard order declared (numbered ++ [unlabelled line instruction]) =
      blockOf .standard order declared line layout.size layout.pending instruction >>=
        fun block => pure (layout.append block) := by
    rw [layoutOf, List.foldlM_append]
    rw [layoutOf] at laid
    rw [laid]
    change lay .standard order declared layout _ >>= pure = _
    rw [bind_pure]
    rfl
  rw [programOf, declaresLonger]
  change layoutOf .standard order declared _ >>= link order = _
  rw [laidLonger, bind_assoc]
  rfl

variable {program : Program} {blocks : List Block}
  (sound : ∀ block ∈ blocks, block.IsSound) (inOrder : layout.blocks.reverse = placed 0 blocks)
  (linked : link order layout = .ok program)
include sound inOrder linked

theorem length_code_of_link : program.code.length = (blocks.flatMap Block.bytes).length := by
  obtain ⟨_, _, _, code, _⟩ := (link_eq_ok_iff sound inOrder).1 linked
  rw [code, length_flatMap_linked order _ sound]

theorem size_of_link (sized : layout.IsSized) : layout.size = program.code.length := by
  rw [sized, length_code_of_link sound inOrder linked, List.length_flatMap,
    ← map_block_placed 0 blocks, ← inOrder, List.map_map, List.map_reverse, List.sum_reverse]
  rfl

/-- A block without references is linked as it is. -/
theorem link_append (sized : layout.IsSized) {block : Block} (noReferences : block.references = []) :
    ∃ longer, link order (layout.append block) = .ok longer ∧
      longer.code = program.code ++ block.bytes ∧ longer.labels = program.labels := by
  obtain ⟨resolvable, _, labels, code, _⟩ := (link_eq_ok_iff sound inOrder).1 linked
  have longerInOrder : (layout.append block).blocks.reverse = placed 0 (blocks ++ [block]) := by
    rw [Layout.append, List.reverse_cons, inOrder, placed_append, Nat.zero_add,
      ← length_code_of_link sound inOrder linked, ← size_of_link sound inOrder linked sized]
    rfl
  have longerSound : ∀ other ∈ blocks ++ [block], other.IsSound := by
    rw [List.forall_mem_append, List.forall_mem_singleton]
    refine ⟨sound, ?_⟩
    intro reference member
    rw [noReferences] at member
    exact absurd member List.not_mem_nil
  have longerResolvable : ∀ other ∈ blocks ++ [block], ∀ reference ∈ other.references,
      Resolvable layout.labels.reverse reference := by
    rw [List.forall_mem_append, List.forall_mem_singleton, noReferences]
    exact ⟨resolvable, fun reference member => absurd member List.not_mem_nil⟩
  refine ⟨
    { code := (blocks ++ [block]).flatMap (Block.linked order layout.labels.reverse)
      listing := listingOf (blocks ++ [block])
        ((blocks ++ [block]).flatMap (Block.linked order layout.labels.reverse))
      blocks := placed 0 (blocks ++ [block])
      labels := layout.labels.reverse }, ?_, ?_, labels.symm⟩
  · exact (link_eq_ok_iff longerSound longerInOrder).2 ⟨longerResolvable, rfl, rfl, rfl, rfl⟩
  · rw [List.flatMap_append, List.flatMap_singleton,
      Block.linked_of_references_eq_nil order _ noReferences, code]

end Laid

/-- What becomes of the statements of a program with one more that defines no label. -/
structure AwaitsStatement (order : ByteOrder) (numbered : List NumberedStatement)
    (program : Program) (declared : Declarations) (label : String) : Prop where
  names : ∀ name, (declared.lookup name).isSome = true ↔ name ∈ program.labels.map Prod.fst
  identifiers : ∀ name, (declared.lookup name).isSome = true → isIdentifier name = true
  fails : ∀ line instruction failure,
    blockOf .standard order declared line program.code.length label instruction = .error failure →
      programOf .standard order (numbered ++ [unlabelled line instruction]) = .error failure
  emits : ∀ line instruction block,
    blockOf .standard order declared line program.code.length label instruction = .ok block →
      block.references = [] → ∃ longer,
        programOf .standard order (numbered ++ [unlabelled line instruction]) = .ok longer ∧
          longer.code = program.code ++ block.bytes ∧ longer.labels = program.labels

theorem exists_awaitsStatement {order : ByteOrder} {numbered : List NumberedStatement}
    {program : Program} (assembles : programOf .standard order numbered = .ok program) :
    ∃ declared label, AwaitsStatement order numbered program declared label := by
  obtain ⟨declared, declares, laidOut⟩ := bind_eq_ok_iff.1 assembles
  obtain ⟨layout, laid, linked⟩ := bind_eq_ok_iff.1 laidOut
  obtain ⟨blocks, labels, lays, inOrder, sameLabels⟩ := lays_of_foldlM laid
  rw [List.reverse_nil, List.nil_append] at inOrder sameLabels
  have sound := isSound_of_lays lays
  have sized := isSized_of_layoutOf laid
  have longer := programOf_concat declares laid
  rw [size_of_link sound inOrder linked sized] at longer
  refine ⟨declared, layout.pending, ?names, ?identifiers, ?fails, ?emits⟩
  case names =>
    obtain ⟨_, _, programLabels, _⟩ := (link_eq_ok_iff sound inOrder).1 linked
    intro name
    rw [isSome_lookup_of_lays declares lays, isSome_lookup_iff, programLabels, sameLabels]
  case identifiers =>
    intro name isLabel
    exact (areProper_of_declarations declares).identifier name (isSome_lookup_iff.1 isLabel)
  case fails =>
    intro line instruction failure fails
    rw [longer, fails]
    rfl
  case emits =>
    intro line instruction block emitted noReferences
    rw [longer, emitted]
    exact link_append sound inOrder linked sized noReferences

end Intel8085.Assembly
