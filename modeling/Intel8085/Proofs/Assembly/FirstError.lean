import Intel8085.Proofs.Assembly.References
import Intel8085.Proofs.Source.LineEdits

/-!
# The error that is reported

A source text is refused for its first improper label, whatever else is wrong with it; if its labels
are proper, for its first statement that cannot be encoded; and if all of them can, for the first use
of a label whose address does not fit there.  It is assembled exactly when nothing of this is wrong
(`assemble_reportsFirstError`).
-/

set_option autoImplicit false

namespace Intel8085.Assembly

open Intel8085.Text Intel8085.Source

/-- The labels that statements use, in the order in which they emit the bytes for them. -/
def Uses (names : List String) (numbered : List NumberedStatement) (uses : List LabelUse) : Prop :=
  ∃ emissions, List.Forall₂ (Emits names) numbered emissions ∧
    uses = emissions.flatMap Emission.uses

theorem uses_unique {names : List String} {numbered : List NumberedStatement}
    {first second : List LabelUse} (uses : Uses names numbered first)
    (usesToo : Uses names numbered second) : first = second := by
  obtain ⟨emissions, emits, rfl⟩ := uses
  obtain ⟨others, emitsToo, rfl⟩ := usesToo
  rw [emissions_unique emits emitsToo]

/-! ## Linking a layout -/

theorem mem_names_of_usesOf {names operands : List String} {line width : Nat} {use : LabelUse}
    (member : use ∈ usesOf names line width operands) : use.line = line ∧ use.name ∈ names := by
  obtain ⟨name, isName, rfl⟩ := List.mem_map.1 member
  exact ⟨rfl, by simpa using (List.mem_filter.1 isName).2⟩

/-- A use of a label stands on the line of a statement and is one of a declared label. -/
theorem line_and_name_of_uses {names : List String} {numbered : List NumberedStatement}
    {uses : List LabelUse} (used : Uses names numbered uses) {use : LabelUse}
    (member : use ∈ uses) : (∃ one ∈ numbered, use.line = one.line) ∧ use.name ∈ names := by
  obtain ⟨emissions, emits, rfl⟩ := used
  obtain ⟨emission, isEmission, isUse⟩ := List.mem_flatMap.1 member
  obtain ⟨one, isStatement, emitsOne⟩ := exists_of_mem_right emits isEmission
  rw [Emits] at emitsOne
  split at emitsOne
  · subst emitsOne
    exact absurd isUse List.not_mem_nil
  · cases emitsOne with
    | data _ _ _ _ =>
        obtain ⟨sameLine, isName⟩ := mem_names_of_usesOf isUse
        exact ⟨⟨one, isStatement, sameLine⟩, isName⟩
    | form _ _ _ _ _ =>
        obtain ⟨sameLine, isName⟩ := mem_names_of_usesOf isUse
        exact ⟨⟨one, isStatement, sameLine⟩, isName⟩

theorem end_le_of_mem_placed {start : Nat} {blocks : List Block} {position : PlacedBlock}
    (member : position ∈ placed start blocks) :
    position.address + position.block.bytes.length ≤
      start + (blocks.flatMap Block.bytes).length := by
  induction blocks generalizing start with
  | nil => exact absurd member List.not_mem_nil
  | cons block others inductionHypothesis =>
      rw [List.flatMap_cons, List.length_append]
      rcases List.mem_cons.1 member with rfl | later
      · dsimp only
        omega
      · have bound := inductionHypothesis later
        omega

/-- When the labels cannot be declared, it is for the first one that breaks a rule. -/
theorem first_of_declarations {numbered : List NumberedStatement} {failure : Failure}
    (fails : declarations .standard numbered = .error failure) :
    ∃ earlier one, IsFirst BreaksLabelRule numbered earlier one ∧
      ∃ cause, failure = .refused { line := one.line, cause } :=
  first_of_foldlM continues_declare declares_nil stops_declare fails

section Link

variable {order : ByteOrder} {numbered : List NumberedStatement} {declared : Declarations}
  {layout : Layout}
  (declares : declarations .standard numbered = .ok declared)
  (laid : layoutOf .standard order declared numbered = .ok layout)
include declares

theorem noneFails_of_declarations :
    NoneFails BreaksLabelRule numbered ∧ Declares numbered declared :=
  noneFails_of_foldlM continues_declare declares_nil declares

theorem mem_declared_iff (name : String) :
    name ∈ declared.map Prod.fst ↔ name ∈ labelNames numbered := by
  have names := (noneFails_of_declarations declares).2
  rw [Declares] at names
  rw [names, List.mem_reverse]

include laid

theorem noneFails_of_layoutOf :
    NoneFails (Unencodable (labelNames numbered)) numbered ∧
      LaysOut (labelNames numbered) numbered layout :=
  noneFails_of_foldlM (continues_lay (mem_declared_iff declares)) (laysOut_nil _) laid

theorem uses_of_layoutOf :
    Uses (labelNames numbered) numbered
      (layout.blocks.reverse.flatMap fun placed => placed.block.uses) := by
  obtain ⟨emissions, emits, _, sameUses⟩ := (noneFails_of_layoutOf declares laid).2.emits
  exact ⟨emissions, emits, sameUses⟩

theorem isPatchable_of_layoutOf {item : PlacedBlock × Reference}
    (member : item ∈ placedReferences layout.blocks.reverse) :
    IsPatchable layout.labels.reverse
      (layout.blocks.reverse.flatMap fun placed => placed.block.bytes).length item := by
  obtain ⟨blocks, labels, lays, sameBlocks, sameLabels⟩ := lays_of_foldlM laid
  rw [List.reverse_nil, List.nil_append] at sameBlocks sameLabels
  obtain ⟨position, isPlaced, isItem⟩ := List.mem_flatMap.1 member
  obtain ⟨reference, isReference, rfl⟩ := List.mem_map.1 isItem
  have isUse : useOf (position, reference) ∈
      layout.blocks.reverse.flatMap fun placed => placed.block.uses := by
    rw [← map_useOf]
    exact List.mem_map_of_mem member
  rw [sameBlocks] at isPlaced
  change position ∈ placed 0 blocks at isPlaced
  obtain ⟨_, _, _, _, emitted⟩ := block_mem_of_lays lays (mem_of_mem_placed isPlaced)
  obtain ⟨proper, within⟩ := isSound_blockOf emitted reference isReference
  have sameBytes : layout.blocks.reverse.flatMap (fun placed => placed.block.bytes) =
      blocks.flatMap Block.bytes := by
    rw [sameBlocks, ← List.flatMap_map PlacedBlock.block Block.bytes, map_block_placed]
  constructor
  case proper => exact proper
  case within =>
    have ends := end_le_of_mem_placed isPlaced
    rw [sameBytes]
    dsimp only
    omega
  case named =>
    rw [isSome_lookup_iff, sameLabels, map_fst_of_lays lays]
    exact (line_and_name_of_uses (uses_of_layoutOf declares laid) isUse).2

/-- Linking succeeds when every address fits, and otherwise it stops at the first use of a label whose
address does not. -/
theorem link_cases :
    ∃ uses, Uses (labelNames numbered) numbered uses ∧
      ((NoneFails (fun _ => IsTooFar (labelNames numbered) numbered) uses ∧
          ∃ program, link order layout = .ok program) ∨
        ∃ earlier use,
          IsFirst (fun _ => IsTooFar (labelNames numbered) numbered) uses earlier use ∧
          ∃ cause, link order layout = .error (.refused { line := use.line, cause })) := by
  obtain ⟨blocks, labels, lays, _, sameLabels⟩ := lays_of_foldlM laid
  rw [List.reverse_nil, List.nil_append] at sameLabels
  have laysOut := (noneFails_of_layoutOf declares laid).2
  have sameNames : layout.labels.reverse.map Prod.fst = labelNames numbered := by
    rw [sameLabels, map_fst_of_lays lays]
  have patchable := fun item => @isPatchable_of_layoutOf order numbered declared layout declares laid
    item
  have addresses := fun name address => @lookup_eq_some_iff_hasAddress (labelNames numbered) numbered
    name layout laysOut (noneFails_of_declarations declares).1 sameNames address
  have continues := @continues_patch order _ _ _ _ _ patchable addresses
  have stops := @stops_patch order _ _ _ _ _ patchable addresses
  -- the uses of the statements are those of the placed references, so the fold over these decides
  refine ⟨_, uses_of_layoutOf declares laid, ?_⟩
  rw [← map_useOf]
  cases linked : layout.blocks.reverse.foldlM (patchBlockCode order layout.labels.reverse)
      (layout.blocks.reverse.flatMap fun placed => placed.block.bytes).toArray with
  | ok code =>
      left
      have patched := linked
      rw [foldlM_patchBlockCode] at patched
      refine ⟨noneFails_map_iff.2 (noneFails_of_foldlM continues (by simp) patched).1, ?_⟩
      rw [link_eq, linked]
      exact ⟨_, rfl⟩
  | error failure =>
      right
      have patched := linked
      rw [foldlM_patchBlockCode] at patched
      obtain ⟨earlier, item, first, cause, rfl⟩ := first_of_foldlM continues (by simp) stops patched
      refine ⟨_, _, first.map, cause, ?_⟩
      rw [link_eq, linked]
      rfl

end Link

/-! ## The report -/

/-- What the assembler makes of statements: a program, or an error at the first that it objects to,
where an earlier pass goes before a later one. -/
inductive Verdict (numbered : List NumberedStatement) : Except Failure Program → Prop where
  | label {earlier : List NumberedStatement} {one : NumberedStatement}
      (first : IsFirst BreaksLabelRule numbered earlier one) (cause : Cause) :
      Verdict numbered (.error (.refused { line := one.line, cause }))
  | statement {earlier : List NumberedStatement} {one : NumberedStatement}
      (labels : NoneFails BreaksLabelRule numbered)
      (first : IsFirst (Unencodable (labelNames numbered)) numbered earlier one) (cause : Cause) :
      Verdict numbered (.error (.refused { line := one.line, cause }))
  | reference {uses earlier : List LabelUse} {use : LabelUse}
      (labels : NoneFails BreaksLabelRule numbered)
      (encodes : NoneFails (Unencodable (labelNames numbered)) numbered)
      (used : Uses (labelNames numbered) numbered uses)
      (first : IsFirst (fun _ => IsTooFar (labelNames numbered) numbered) uses earlier use)
      (cause : Cause) : Verdict numbered (.error (.refused { line := use.line, cause }))
  | success {uses : List LabelUse} (labels : NoneFails BreaksLabelRule numbered)
      (encodes : NoneFails (Unencodable (labelNames numbered)) numbered)
      (used : Uses (labelNames numbered) numbered uses)
      (near : NoneFails (fun _ => IsTooFar (labelNames numbered) numbered) uses)
      (program : Program) : Verdict numbered (.ok program)

theorem verdict_programOf (order : ByteOrder) {numbered : List NumberedStatement}
    (moderate : ∀ one ∈ numbered, ∀ operand ∈ operandsIn one, ¬ IsOverlong operand) :
    Verdict numbered (programOf .standard order numbered) := by
  rw [programOf]
  cases declares : declarations .standard numbered with
  | error failure =>
      obtain ⟨earlier, one, first, cause, rfl⟩ := first_of_declarations declares
      exact .label first cause
  | ok declared =>
      have labels := (noneFails_of_declarations declares).1
      have sameNames := mem_declared_iff declares
      cases laid : layoutOf .standard order declared numbered with
      | error failure =>
          obtain ⟨earlier, one, first, cause, rfl⟩ :=
            first_of_foldlM (continues_lay sameNames) (laysOut_nil _)
              (stops_lay sameNames moderate) laid
          change Verdict numbered (layoutOf .standard order declared numbered >>= link order)
          rw [laid]
          exact .statement labels first cause
      | ok layout =>
          have encodes := (noneFails_of_layoutOf declares laid).1
          obtain ⟨uses, used, ⟨near, program, linked⟩ | ⟨earlier, use, first, cause, refused⟩⟩ :=
            link_cases declares laid
          all_goals
            change Verdict numbered (layoutOf .standard order declared numbered >>= link order)
            rw [laid]
            change Verdict numbered (link order layout)
          · rw [linked]
            exact .success labels encodes used near program
          · rw [refused]
            exact .reference labels encodes used first cause

/-- Which error is reported for statements, and that there is one exactly when something is wrong. -/
structure ReportsFirstError (numbered : List NumberedStatement) (result : Except Failure Program) :
    Prop where
  label : ¬ NoneFails BreaksLabelRule numbered →
    ∃ earlier one, IsFirst BreaksLabelRule numbered earlier one ∧
      ∃ cause, result = .error (.refused { line := one.line, cause })
  statement : NoneFails BreaksLabelRule numbered →
    ¬ NoneFails (Unencodable (labelNames numbered)) numbered →
      ∃ earlier one, IsFirst (Unencodable (labelNames numbered)) numbered earlier one ∧
        ∃ cause, result = .error (.refused { line := one.line, cause })
  used : NoneFails BreaksLabelRule numbered →
    NoneFails (Unencodable (labelNames numbered)) numbered →
      ∃ uses, Uses (labelNames numbered) numbered uses
  reference : NoneFails BreaksLabelRule numbered →
    NoneFails (Unencodable (labelNames numbered)) numbered →
      ∀ uses, Uses (labelNames numbered) numbered uses →
        ¬ NoneFails (fun _ => IsTooFar (labelNames numbered) numbered) uses →
          ∃ earlier use,
            IsFirst (fun _ => IsTooFar (labelNames numbered) numbered) uses earlier use ∧
              ∃ cause, result = .error (.refused { line := use.line, cause })
  success : (∃ program, result = .ok program) ↔
    NoneFails BreaksLabelRule numbered ∧ NoneFails (Unencodable (labelNames numbered)) numbered ∧
      ∀ uses, Uses (labelNames numbered) numbered uses →
        NoneFails (fun _ => IsTooFar (labelNames numbered) numbered) uses

theorem reportsFirstError_of_verdict {numbered : List NumberedStatement}
    {result : Except Failure Program} (verdict : Verdict numbered result) :
    ReportsFirstError numbered result := by
  cases verdict with
  | @label earlier one first cause =>
      have broken := first.not_noneFails
      constructor
      case label => exact fun _ => ⟨earlier, one, first, cause, rfl⟩
      all_goals simp [broken]
  | @statement earlier one labels first cause =>
      have broken := first.not_noneFails
      constructor
      case statement => exact fun _ _ => ⟨earlier, one, first, cause, rfl⟩
      all_goals simp [labels, broken]
  | @reference uses earlier use labels encodes used first cause =>
      have broken := first.not_noneFails
      constructor
      case used => exact fun _ _ => ⟨uses, used⟩
      case reference =>
        intro _ _ others usedToo _
        rw [uses_unique usedToo used]
        exact ⟨earlier, use, first, cause, rfl⟩
      case success =>
        simp only [reduceCtorEq, exists_false, labels, encodes, true_and, false_iff, not_forall]
        exact ⟨uses, used, broken⟩
      all_goals simp [labels, encodes]
  | @success uses labels encodes used near program =>
      have always : ∀ others, Uses (labelNames numbered) numbered others →
          NoneFails (fun _ => IsTooFar (labelNames numbered) numbered) others := by
        intro others usedToo
        rw [uses_unique usedToo used]
        exact near
      constructor
      case used => exact fun _ _ => ⟨uses, used⟩
      case reference => exact fun _ _ others usedToo far => absurd (always others usedToo) far
      case success => exact ⟨fun _ => ⟨labels, encodes, always⟩, fun _ => ⟨program, rfl⟩⟩
      all_goals simp [labels, encodes]

theorem reportsFirstError_of_moderate (order : ByteOrder) {source : List Char}
    (moderate : ∀ one ∈ statements source, ∀ operand ∈ operandsIn one,
      operand.length ≤ moderateLength) :
    ReportsFirstError (statements source) (assemble .standard order source) := by
  apply reportsFirstError_of_verdict
  apply verdict_programOf
  intro one member operand isOperand
  apply not_isOverlong_of_length
  rw [String.length_toList]
  exact moderate one member operand isOperand

/-- Operands that are written in fewer than a thousand characters are of moderate length. -/
theorem moderate_of_short {source : List Char}
    (short : ∀ line ∈ lines source, ∀ operand ∈ writtenOperands line, operand.length < 1000) :
    ∀ one ∈ statements source, ∀ operand ∈ operandsIn one, operand.length ≤ moderateLength := by
  intro one member operand isOperand
  obtain ⟨line, listed, _, read⟩ := statementOf?_of_mem member
  have isLine : line ∈ lines source := List.mem_of_getElem? listed
  rw [operandsIn] at isOperand
  split at isOperand
  · exact absurd isOperand List.not_mem_nil
  · rename_i instruction instructs
    rw [operands_of_statementOf? read instructs] at isOperand
    obtain ⟨written, isWritten, rfl⟩ := List.mem_map.1 isOperand
    exact length_capitalText_le (short line isLine written isWritten)

/-- Whatever the order of bytes and the source text, the error that is reported is the first one, and
a text with nothing wrong is assembled. -/
theorem assemble_reportsFirstError (order : ByteOrder) (source : List Char)
    (short : ∀ line ∈ lines source, ∀ operand ∈ writtenOperands line, operand.length < 1000) :
    ReportsFirstError (statements source) (assemble .standard order source) :=
  reportsFirstError_of_moderate order (moderate_of_short short)

/-- A label that is a reserved word is reported, and not the mnemonic on the line before it. -/
theorem assemble_reportsFirstError_of_late_label :
    (∀ line ∈ lines "JUMP 1\nA: NOP".toList, ∀ operand ∈ writtenOperands line,
      operand.length < 1000) ∧
    assemble .standard .little "JUMP 1\nA: NOP".toList =
      .error (.refused { line := 2, cause := .reservedLabel "A" }) ∧
    ReportsFirstError (statements "JUMP 1\nA: NOP".toList)
      (assemble .standard .little "JUMP 1\nA: NOP".toList) := by
  have short : ∀ line ∈ lines "JUMP 1\nA: NOP".toList, ∀ operand ∈ writtenOperands line,
      operand.length < 1000 := by decide
  have reported : assemble .standard .little "JUMP 1\nA: NOP".toList =
      .error (.refused { line := 2, cause := .reservedLabel "A" }) := by decide
  exact ⟨short, reported, assemble_reportsFirstError .little _ short⟩

end Intel8085.Assembly
