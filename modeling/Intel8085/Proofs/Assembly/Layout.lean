import Intel8085.Proofs.Assembly.Blocks
import Intel8085.Proofs.Assembly.Images

/-!
# Layout

`Lays` says how statements become blocks and label addresses: each block is that of its statement
behind the bytes so far, and each label has the address of the next byte.  A source text assembles
exactly when its statements are laid out and every reference can be resolved, and the program is
then the linked blocks one behind the other (`assemble_standard_eq_ok_iff`).
-/

set_option autoImplicit false

namespace Intel8085.Assembly

open Intel8085.Text Intel8085.Source

/-- The label that the next block shows, behind a label definition if there is one. -/
def shownLabel (pending : String) : Option Label → String
  | none => pending
  | some label => label.written

/-- The address that a label definition adds, if there is one. -/
def definedAt (address : Nat) : Option Label → List (String × Nat)
  | none => []
  | some label => [(label.name, address)]

/-- Statements are laid out behind `size` bytes as blocks, and their labels have addresses. -/
inductive Lays (table : OpcodeTable) (order : ByteOrder) (declared : Declarations) :
    (size : Nat) → (pending : String) → List NumberedStatement → List Block →
      List (String × Nat) → Prop where
  | nil {size : Nat} {pending : String} : Lays table order declared size pending [] [] []
  | bare {size : Nat} {pending : String} {numbered : NumberedStatement}
      {others : List NumberedStatement} {blocks : List Block} {labels : List (String × Nat)}
      (noInstruction : numbered.statement.instruction = none)
      (later : Lays table order declared size (shownLabel pending numbered.statement.label) others
        blocks labels) :
      Lays table order declared size pending (numbered :: others) blocks
        (definedAt size numbered.statement.label ++ labels)
  | block {size : Nat} {pending : String} {numbered : NumberedStatement}
      {others : List NumberedStatement} {instruction : Instruction} {block : Block}
      {blocks : List Block} {labels : List (String × Nat)}
      (hasInstruction : numbered.statement.instruction = some instruction)
      (emitted : blockOf table order declared numbered.line size
        (shownLabel pending numbered.statement.label) instruction = .ok block)
      (later : Lays table order declared (size + block.bytes.length) "" others blocks labels) :
      Lays table order declared size pending (numbered :: others) (block :: blocks)
        (definedAt size numbered.statement.label ++ labels)

section Lays

variable {table : OpcodeTable} {order : ByteOrder} {declared : Declarations}

theorem define_eq (layout : Layout) (label : Option Label) :
    layout.define label =
      { layout with
        pending := shownLabel layout.pending label
        labels := definedAt layout.size label ++ layout.labels } := by
  cases label with
  | none => rfl
  | some label => rfl

theorem reverse_definedAt (address : Nat) (label : Option Label) :
    (definedAt address label).reverse = definedAt address label := by
  cases label with
  | none => rfl
  | some label => rfl

theorem lay_of_bare {layout : Layout} {numbered : NumberedStatement}
    (noInstruction : numbered.statement.instruction = none) :
    lay table order declared layout numbered = .ok (layout.define numbered.statement.label) := by
  rw [lay, noInstruction]

theorem lay_of_instruction {layout : Layout} {numbered : NumberedStatement}
    {instruction : Instruction} (hasInstruction : numbered.statement.instruction = some instruction) :
    lay table order declared layout numbered =
      blockOf table order declared numbered.line layout.size
        (shownLabel layout.pending numbered.statement.label) instruction >>= fun block =>
          pure ((layout.define numbered.statement.label).append block) := by
  rw [lay, hasInstruction, define_eq]

/-- What laying out gives is what `Lays` says, behind what was laid out before. -/
theorem lays_of_foldlM {numbered : List NumberedStatement} {layout result : Layout}
    (success : numbered.foldlM (lay table order declared) layout = .ok result) :
    ∃ blocks labels,
      Lays table order declared layout.size layout.pending numbered blocks labels ∧
        result.blocks.reverse = layout.blocks.reverse ++ placed layout.size blocks ∧
        result.labels.reverse = layout.labels.reverse ++ labels := by
  induction numbered generalizing layout with
  | nil =>
      cases pure_eq_ok_iff.1 success
      exact ⟨[], [], .nil, (List.append_nil _).symm, (List.append_nil _).symm⟩
  | cons first others inductionHypothesis =>
      rw [List.foldlM_cons, bind_eq_ok_iff] at success
      obtain ⟨middle, laid, rest⟩ := success
      obtain ⟨blocks, labels, later, sameBlocks, sameLabels⟩ := inductionHypothesis rest
      cases hasInstruction : first.statement.instruction with
      | none =>
          rw [lay_of_bare hasInstruction, define_eq] at laid
          cases laid
          refine ⟨blocks, _, .bare hasInstruction later, sameBlocks, ?_⟩
          rw [sameLabels, List.reverse_append, reverse_definedAt, List.append_assoc]
      | some instruction =>
          rw [lay_of_instruction hasInstruction, bind_eq_ok_iff] at laid
          obtain ⟨block, emitted, appended⟩ := laid
          cases pure_eq_ok_iff.1 appended
          rw [define_eq] at later sameBlocks sameLabels
          refine ⟨block :: blocks, _, .block hasInstruction emitted later, ?_, ?_⟩
          · rw [sameBlocks, Layout.append, List.reverse_cons, List.append_assoc]
            rfl
          · rw [sameLabels, Layout.append, List.reverse_append, reverse_definedAt,
              List.append_assoc]

theorem foldlM_of_lays {size : Nat} {pending : String} {numbered : List NumberedStatement}
    {blocks : List Block} {labels : List (String × Nat)}
    (lays : Lays table order declared size pending numbered blocks labels) (layout : Layout)
    (sameSize : layout.size = size) (samePending : layout.pending = pending) :
    ∃ result, numbered.foldlM (lay table order declared) layout = .ok result ∧
      result.blocks.reverse = layout.blocks.reverse ++ placed size blocks ∧
      result.labels.reverse = layout.labels.reverse ++ labels := by
  induction lays generalizing layout with
  | nil => exact ⟨layout, rfl, (List.append_nil _).symm, (List.append_nil _).symm⟩
  | @bare size pending first others blocks labels noInstruction _ inductionHypothesis =>
      subst sameSize samePending
      obtain ⟨result, success, sameBlocks, sameLabels⟩ :=
        inductionHypothesis (layout.define first.statement.label)
          (by rw [define_eq]) (by rw [define_eq])
      refine ⟨result, ?_, ?_, ?_⟩
      · rw [List.foldlM_cons, lay_of_bare noInstruction]
        exact success
      · rw [sameBlocks, define_eq]
      · rw [sameLabels, define_eq, List.reverse_append, reverse_definedAt, List.append_assoc]
  | @block size pending first others instruction block blocks labels hasInstruction emitted _
      inductionHypothesis =>
      subst sameSize samePending
      obtain ⟨result, success, sameBlocks, sameLabels⟩ :=
        inductionHypothesis ((layout.define first.statement.label).append block)
          (by rw [define_eq, Layout.append]) (by rw [define_eq, Layout.append])
      refine ⟨result, ?_, ?_, ?_⟩
      · rw [List.foldlM_cons, lay_of_instruction hasInstruction, emitted]
        exact success
      · rw [sameBlocks, define_eq, Layout.append, List.reverse_cons, List.append_assoc]
        rfl
      · rw [sameLabels, define_eq, Layout.append, List.reverse_append, reverse_definedAt,
          List.append_assoc]

theorem block_mem_of_lays {size : Nat} {pending : String} {numbered : List NumberedStatement}
    {blocks : List Block} {labels : List (String × Nat)}
    (lays : Lays table order declared size pending numbered blocks labels) {block : Block}
    (member : block ∈ blocks) :
    ∃ line before label instruction,
      blockOf table order declared line before label instruction = .ok block := by
  induction lays with
  | nil => exact absurd member List.not_mem_nil
  | bare _ _ inductionHypothesis => exact inductionHypothesis member
  | block _ emitted _ inductionHypothesis =>
      rcases List.mem_cons.1 member with rfl | isLater
      · exact ⟨_, _, _, _, emitted⟩
      · exact inductionHypothesis isLater

end Lays

/-! ## Names of labels -/

/-- The names of the labels that statements define, in order. -/
def labelNames (numbered : List NumberedStatement) : List String :=
  numbered.filterMap fun one => one.statement.label.map Label.name

theorem isSome_lookup_iff {Content : Type} {entries : List (String × Content)} {name : String} :
    (entries.lookup name).isSome = true ↔ name ∈ entries.map Prod.fst := by
  rw [List.lookup_isSome_iff, List.mem_map]
  constructor
  · rintro ⟨entry, member, same⟩
    exact ⟨entry, member, (beq_iff_eq.1 same).symm⟩
  · rintro ⟨entry, member, rfl⟩
    exact ⟨entry, member, beq_self_eq_true _⟩

theorem map_fst_of_lays {table : OpcodeTable} {order : ByteOrder} {declared : Declarations}
    {size : Nat} {pending : String} {numbered : List NumberedStatement} {blocks : List Block}
    {labels : List (String × Nat)}
    (lays : Lays table order declared size pending numbered blocks labels) :
    labels.map Prod.fst = labelNames numbered := by
  have oneStatement : ∀ (address : Nat) (first : NumberedStatement)
      (others : List NumberedStatement),
      (definedAt address first.statement.label).map Prod.fst ++ labelNames others =
        labelNames (first :: others) := by
    intro address first others
    rw [labelNames, labelNames, List.filterMap_cons]
    cases first.statement.label with
    | none => rfl
    | some label => rfl
  induction lays with
  | nil => rfl
  | bare _ _ inductionHypothesis =>
      rw [List.map_append, inductionHypothesis, oneStatement]
  | block _ _ _ inductionHypothesis =>
      rw [List.map_append, inductionHypothesis, oneStatement]

theorem labelNames_cons (first : NumberedStatement) (others : List NumberedStatement) :
    labelNames (first :: others) = labelNames [first] ++ labelNames others := by
  rw [labelNames, ← List.singleton_append, List.filterMap_append]
  rfl

/-- A statement declares nothing, or a new label whose name is an identifier and not reserved. -/
theorem declare_cases {table : OpcodeTable} {declared result : Declarations}
    {numbered : NumberedStatement} (success : declare table declared numbered = .ok result) :
    numbered.statement.label = none ∧ result = declared ∨
      ∃ label, numbered.statement.label = some label ∧ isIdentifier label.name = true ∧
        isReserved table label.name = false ∧ declared.lookup label.name = none ∧
        result = (label.name, numbered.line) :: declared := by
  unfold declare at success
  cases hasLabel : numbered.statement.label with
  | none =>
      rw [hasLabel] at success
      cases success
      exact Or.inl ⟨rfl, rfl⟩
  | some label =>
      simp only [hasLabel] at success
      split at success
      · exact absurd success refuse_ne_ok
      · rename_i identifier
        split at success
        · exact absurd success refuse_ne_ok
        · rename_i unreserved
          split at success
          · exact absurd success refuse_ne_ok
          · rename_i fresh
            cases success
            exact Or.inr ⟨label, rfl, by simpa using identifier, by simpa using unreserved, fresh, rfl⟩

theorem map_fst_of_foldlM_declare {table : OpcodeTable} {numbered : List NumberedStatement}
    {declared result : Declarations}
    (success : numbered.foldlM (declare table) declared = .ok result) :
    result.map Prod.fst = (labelNames numbered).reverse ++ declared.map Prod.fst := by
  induction numbered generalizing declared with
  | nil =>
      cases pure_eq_ok_iff.1 success
      rfl
  | cons first others inductionHypothesis =>
      rw [List.foldlM_cons, bind_eq_ok_iff] at success
      obtain ⟨middle, declaredFirst, rest⟩ := success
      have firstNames : middle.map Prod.fst = labelNames [first] ++ declared.map Prod.fst := by
        rcases declare_cases declaredFirst with ⟨noLabel, rfl⟩ | ⟨label, isLabel, _, _, _, rfl⟩
        · simp [labelNames, noLabel]
        · simp [labelNames, isLabel]
      have atMostOne : (labelNames [first]).reverse = labelNames [first] := by
        rw [labelNames, List.filterMap_cons]
        cases first.statement.label with
        | none => rfl
        | some label => rfl
      rw [inductionHypothesis rest, firstNames, labelNames_cons first others, List.reverse_append,
        atMostOne, List.append_assoc]

/-- The labels that have addresses are those that are declared. -/
theorem isSome_lookup_of_lays {table : OpcodeTable} {order : ByteOrder} {declared : Declarations}
    {size : Nat} {pending : String} {numbered : List NumberedStatement} {blocks : List Block}
    {labels : List (String × Nat)} (declares : declarations table numbered = .ok declared)
    (lays : Lays table order declared size pending numbered blocks labels) (name : String) :
    (declared.lookup name).isSome = (labels.lookup name).isSome := by
  rw [Bool.eq_iff_iff, isSome_lookup_iff, isSome_lookup_iff, map_fst_of_lays lays,
    map_fst_of_foldlM_declare declares]
  simp

/-! ## Programs -/

theorem link_eq_ok_iff {order : ByteOrder} {layout : Layout} {program : Program} {blocks : List Block}
    (sound : ∀ block ∈ blocks, block.IsSound) (laid : layout.blocks.reverse = placed 0 blocks) :
    link order layout = .ok program ↔
      (∀ block ∈ blocks, ∀ reference ∈ block.references,
        Resolvable layout.labels.reverse reference) ∧
      program.blocks = placed 0 blocks ∧ program.labels = layout.labels.reverse ∧
      program.code = blocks.flatMap (Block.linked order layout.labels.reverse) ∧
      program.listing = listingOf blocks program.code := by
  have unpatched : (placed 0 blocks).flatMap (fun position => position.block.bytes) =
      blocks.flatMap Block.bytes := by
    rw [← List.flatMap_map PlacedBlock.block Block.bytes, map_block_placed]
  have linking : ∀ code : Array UInt8,
      (placed 0 blocks).foldlM (patchBlockCode order layout.labels.reverse)
          (blocks.flatMap Block.bytes).toArray = .ok code ↔ _ :=
    fun code => @link_placed_iff order layout.labels.reverse blocks [] code sound
  rw [link_eq]
  simp only [laid, unpatched, bind_eq_ok_iff, pure_eq_ok_iff, linking, Layout.program,
    map_block_placed]
  constructor
  · rintro ⟨code, ⟨resolvable, rfl⟩, rfl⟩
    exact ⟨resolvable, rfl, rfl, rfl, rfl⟩
  · rintro ⟨resolvable, sameBlocks, sameLabels, sameCode, listed⟩
    refine ⟨_, ⟨resolvable, rfl⟩, ?_⟩
    obtain ⟨code, listing, placedBlocks, labels⟩ := program
    simp only at sameBlocks sameLabels sameCode listed
    subst sameBlocks sameLabels sameCode listed
    rfl

/-- With the standard table a source text assembles exactly when its labels are declared, its
statements are laid out and its references can be resolved. -/
theorem assemble_standard_eq_ok_iff {order : ByteOrder} {source : List Char} {program : Program} :
    assemble .standard order source = .ok program ↔
      ∃ declared blocks,
        declarations .standard (statements source) = .ok declared ∧
        Lays .standard order declared 0 "" (statements source) blocks program.labels ∧
        (∀ block ∈ blocks, ∀ reference ∈ block.references,
          Resolvable program.labels reference) ∧
        program.blocks = placed 0 blocks ∧
        program.code = blocks.flatMap (Block.linked order program.labels) ∧
        program.listing = listingOf blocks program.code := by
  have soundBlocks : ∀ {declared : Declarations} {blocks : List Block}
      {labels : List (String × Nat)},
      Lays .standard order declared 0 "" (statements source) blocks labels →
        ∀ block ∈ blocks, block.IsSound := by
    intro declared blocks labels lays block member
    obtain ⟨_, _, _, _, emitted⟩ := block_mem_of_lays lays member
    exact isSound_blockOf emitted
  unfold assemble programOf
  simp only [bind_eq_ok_iff, layoutOf]
  constructor
  · rintro ⟨declared, declares, layout, laid, linked⟩
    obtain ⟨blocks, labels, lays, sameBlocks, sameLabels⟩ := lays_of_foldlM laid
    rw [List.reverse_nil, List.nil_append] at sameBlocks sameLabels
    obtain ⟨resolvable, placedBlocks, namedLabels, code, listed⟩ :=
      (link_eq_ok_iff (soundBlocks lays) sameBlocks).1 linked
    rw [sameLabels] at resolvable namedLabels code
    subst namedLabels
    exact ⟨declared, blocks, declares, lays, resolvable, placedBlocks, code, listed⟩
  · rintro ⟨declared, blocks, declares, lays, resolvable, placedBlocks, code, listed⟩
    obtain ⟨layout, laid, sameBlocks, sameLabels⟩ :=
      foldlM_of_lays lays { size := 0, pending := "", blocks := [], labels := [] } rfl rfl
    rw [List.reverse_nil, List.nil_append] at sameBlocks sameLabels
    refine ⟨declared, declares, layout, laid, ?_⟩
    rw [link_eq_ok_iff (soundBlocks lays) sameBlocks, sameLabels]
    exact ⟨resolvable, placedBlocks, rfl, code, listed⟩

end Intel8085.Assembly
