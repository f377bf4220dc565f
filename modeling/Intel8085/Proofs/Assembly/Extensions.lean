import Intel8085.Proofs.Agreement
import Intel8085.Proofs.Assembly.Outcomes
import Intel8085.Proofs.Source.Numbering

/-!
# Programs with more behind them

What is appended to a source text that assembles leaves its program as it was: the bytes and the
labels of the longer text begin with those of the shorter one, and when there is no program of the
longer text, something behind the shorter one is at fault (`assemble_append`).  Labels that are
declared later cannot change how an earlier operand is read, since no identifier is a number.
-/

set_option autoImplicit false

namespace Intel8085.Assembly

open Intel8085.Text Intel8085.Source

/-! ## Values with more labels -/

/-- All labels that are declared stay so, and what comes to them are identifiers. -/
structure Widens (declared wider : Declarations) : Prop where
  keeps : ∀ name, (declared.lookup name).isSome = true → (wider.lookup name).isSome = true
  identifiers : ∀ name, (wider.lookup name).isSome = true → isIdentifier name = true

theorem startsWithDigit_of_isIdentifierStart {first : Char}
    (start : isIdentifierStart first = true) (rest : List Char) :
    startsWithDigit (first :: rest) = false := by
  rw [startsWithDigit, List.head?_cons]
  simp only [isIdentifierStart, Bool.or_eq_true, Bool.and_eq_true, decide_eq_true_eq, beq_iff_eq,
    Char.le_def, UInt32.le_iff_toNat_le] at start
  simp only [Bool.and_eq_false_iff, decide_eq_false_iff_not, Char.le_def, UInt32.le_iff_toNat_le]
  right
  rcases start with ⟨above, _⟩ | rfl
  · exact fun below => absurd (Nat.le_trans above below) (by decide)
  · decide

theorem readLiteral_of_isIdentifier {text : String} (identifier : isIdentifier text = true) :
    readLiteral text.toList = .malformed := by
  have noDigit : startsWithDigit text.toList = false := by
    rw [isIdentifier] at identifier
    cases characters : text.toList with
    | nil => rfl
    | cons first rest =>
        rw [characters] at identifier
        exact startsWithDigit_of_isIdentifierStart (Bool.and_eq_true_iff.1 identifier).1 rest
  have bodyNoDigit : startsWithDigit (splitRadix text.toList).2 = false := by
    have whole := splitRadix_append text.toList
    cases body : (splitRadix text.toList).2 with
    | nil => rfl
    | cons first rest =>
        rw [body] at whole
        rw [← whole] at noDigit
        exact noDigit
  simp only [readLiteral, bodyNoDigit, Bool.false_eq_true, if_false]

section Values

variable {declared wider : Declarations} (widens : Widens declared wider)
  (table : OpcodeTable) (order : ByteOrder) (line before : Nat) (label : String)
  (instruction : Instruction)
include widens

theorem persists_valueOf (operand : String) :
    Persists (valueOf declared line operand) (valueOf wider line operand) := by
  intro value read
  rw [valueOf] at read ⊢
  by_cases isLabel : (wider.lookup operand).isSome = true
  · rw [if_pos isLabel]
    split at read
    · exact read
    · rw [readLiteral_of_isIdentifier (widens.identifiers operand isLabel)] at read
      simp only at read
      split at read <;> cases read
  · have noLabel : ¬ (declared.lookup operand).isSome = true := mt (widens.keeps operand) isLabel
    rw [if_neg noLabel] at read
    rwa [if_neg isLabel]

theorem persists_formFor :
    Persists (formFor table declared line instruction) (formFor table wider line instruction) := by
  unfold formFor
  simp only [foldlM_classify]
  split
  · exact .refl _
  · refine .bind (.refl _) fun _ => ?_
    refine .bind (.map (.mapM (persists_valueOf widens line) _) _) fun classified => ?_
    exact .refl _

theorem persists_blockOf :
    Persists (blockOf table order declared line before label instruction)
      (blockOf table order wider line before label instruction) := by
  rw [blockOf, blockOf]
  split
  · unfold dataBlock
    simp only
    split
    · exact .refl _
    · refine .bind (.refl _) fun _ => ?_
      split
      · exact .refl _
      · refine .bind (.mapM (fun operand => ?_) _) fun values => .refl _
        exact .bind (persists_valueOf widens line operand) fun value => .refl _
  · exact .bind (persists_formFor widens table line instruction) fun _ => .refl _

theorem persists_lay (layout : Layout) (one : NumberedStatement) :
    Persists (lay table order declared layout one) (lay table order wider layout one) := by
  cases hasInstruction : one.statement.instruction with
  | none =>
      rw [lay_of_bare hasInstruction, lay_of_bare hasInstruction]
      exact .refl _
  | some instruction =>
      rw [lay_of_instruction hasInstruction, lay_of_instruction hasInstruction]
      exact .bind (persists_blockOf widens table order one.line layout.size _ instruction) fun _ =>
        .refl _

theorem persists_layoutOf (numbered : List NumberedStatement) :
    Persists (layoutOf table order declared numbered) (layoutOf table order wider numbered) :=
  .foldlM (persists_lay widens table order) numbered _

end Values

theorem widens_of_foldlM_declare {table : OpcodeTable} {front later : List NumberedStatement}
    {declared wider : Declarations} (declares : declarations table front = .ok declared)
    (continues : later.foldlM (declare table) declared = .ok wider) : Widens declared wider where
  keeps := by
    intro name isLabel
    rw [isSome_lookup_iff] at isLabel ⊢
    rw [map_fst_of_foldlM_declare continues]
    exact List.mem_append_right _ isLabel
  identifiers := by
    intro name isLabel
    have proper := areProper_of_foldlM_declare (areProper_of_declarations declares) continues
    exact proper.identifier name (isSome_lookup_iff.1 isLabel)

/-! ## Addresses with more labels -/

section Addresses

variable {labels : List (String × Nat)} {name : String} {address : Nat}

theorem lookup_append_of_some (found : labels.lookup name = some address)
    (more : List (String × Nat)) : (labels ++ more).lookup name = some address := by
  rw [List.lookup_append, found, Option.some_or]

theorem Resolvable.append {reference : Reference} (resolvable : Resolvable labels reference)
    (more : List (String × Nat)) : Resolvable (labels ++ more) reference := by
  obtain ⟨address, found, narrow⟩ := resolvable
  exact ⟨address, lookup_append_of_some found more, narrow⟩

theorem linked_append {block : Block}
    (resolvable : ∀ reference ∈ block.references, Resolvable labels reference) (order : ByteOrder)
    (more : List (String × Nat)) :
    block.linked order (labels ++ more) = block.linked order labels := by
  apply List.foldl_ext
  intro bytes reference member
  obtain ⟨address, found, _⟩ := resolvable reference member
  rw [addressOf, addressOf, found, lookup_append_of_some found more]

/-- A text that is refused when its references are resolved is refused at the line of a block with a
reference that cannot be resolved. -/
theorem exists_unresolvable_of_link {order : ByteOrder} {layout : Layout} {error : SourceError}
    (fails : link order layout = .error (.refused error)) :
    ∃ placed ∈ layout.blocks.reverse, error.line = placed.block.line ∧
      ∃ reference ∈ placed.block.references, ¬ Resolvable layout.labels.reverse reference := by
  rw [link_eq] at fails
  rcases bind_eq_error_iff.1 fails with unpatched | ⟨_, _, impossible⟩
  · obtain ⟨placed, isPlaced, code, blockFails⟩ := exists_of_foldlM_eq_error unpatched
    obtain ⟨reference, isReference, middle, patchFails⟩ := exists_of_foldlM_eq_error blockFails
    rcases bind_eq_error_iff.1 patchFails with unresolved | ⟨bytes, _, overwriteFails⟩
    · obtain ⟨⟨cause, refused⟩, unresolvable⟩ := addressBytes_eq_error unresolved
      cases refused
      exact ⟨placed, isPlaced, rfl, reference, isReference, unresolvable⟩
    · cases eq_of_overwriteCode_eq_error overwriteFails
  · cases impossible

end Addresses

/-! ## Texts with more behind them -/

/-- What comes of statements that begin with those of a program and go on behind `count` lines: a
program that begins with the first one, or a failure for which a later line is to blame. -/
inductive Extends (count : Nat) (numbered : List NumberedStatement) (program : Program) :
    Except Failure Program → Prop where
  | extended {wider : Program} (code : program.code <+: wider.code)
      (blocks : program.blocks <+: wider.blocks)
      (labels : ∀ name address, program.labels.lookup name = some address →
        wider.labels.lookup name = some address) :
      Extends count numbered program (.ok wider)
  | refused {error : SourceError} (behind : count < error.line) :
      Extends count numbered program (.error (.refused error))
  | tooLong {one : NumberedStatement} {operand : String} (member : one ∈ numbered)
      (behind : count < one.line) (isOperand : operand ∈ operandsIn one)
      (overlong : IsOverlong operand) : Extends count numbered program (.error .numberTooLong)

theorem refused_of_declare {table : OpcodeTable} {declared : Declarations}
    {one : NumberedStatement} {failure : Failure}
    (fails : declare table declared one = .error failure) :
    ∃ cause, failure = .refused { line := one.line, cause } := by
  unfold declare at fails
  split at fails
  · cases fails
  · split at fails
    · cases fails
      exact ⟨_, rfl⟩
    · split at fails
      · cases fails
        exact ⟨_, rfl⟩
      · split at fails
        · cases fails
          exact ⟨_, rfl⟩
        · cases fails

section Extends

variable {order : ByteOrder} {front later : List NumberedStatement} {count : Nat}
  {program : Program} {declared : Declarations} {layout result : Layout}

theorem isSound_of_lays {size : Nat} {pending : String} {numbered : List NumberedStatement}
    {blocks : List Block} {labels : List (String × Nat)}
    (lays : Lays .standard order declared size pending numbered blocks labels) :
    ∀ block ∈ blocks, block.IsSound := by
  intro block member
  obtain ⟨_, _, _, _, emitted⟩ := block_mem_of_lays lays member
  exact isSound_blockOf emitted

/-- Linking a longer layout changes nothing in front, and fails behind it if it fails. -/
theorem extends_of_link (behind : ∀ one ∈ later, count < one.line)
    (laid : layoutOf .standard order declared front = .ok layout)
    (laidLater : later.foldlM (lay .standard order declared) layout = .ok result)
    (laidWhole : layoutOf .standard order declared (front ++ later) = .ok result)
    (linked : link order layout = .ok program)
    (refuses : ∀ failure, link order result = .error failure → ∃ error, failure = .refused error) :
    Extends count (front ++ later) program (link order result) := by
  obtain ⟨blocks, labels, lays, sameBlocks, _⟩ := lays_of_foldlM laid
  obtain ⟨laterBlocks, laterLabels, laysLater, moreBlocks, moreLabels⟩ := lays_of_foldlM laidLater
  obtain ⟨allBlocks, allLabels, laysWhole, wholeBlocks, _⟩ := lays_of_foldlM laidWhole
  rw [List.reverse_nil, List.nil_append] at sameBlocks wholeBlocks
  have split : allBlocks = blocks ++ laterBlocks := by
    rw [← map_block_placed 0 allBlocks, ← wholeBlocks, moreBlocks, sameBlocks, List.map_append,
      map_block_placed, map_block_placed]
  obtain ⟨resolvable, placedBlocks, programLabels, code, _⟩ :=
    (link_eq_ok_iff (isSound_of_lays lays) sameBlocks).1 linked
  cases linkedResult : link order result with
  | ok wider =>
      obtain ⟨_, widerBlocks, widerLabels, widerCode, _⟩ :=
        (link_eq_ok_iff (isSound_of_lays laysWhole) wholeBlocks).1 linkedResult
      refine .extended ?_ ?_ ?_
      · have sameFront : blocks.flatMap (Block.linked order result.labels.reverse) =
            program.code := by
          rw [code, moreLabels]
          exact List.flatMap_congr fun block member =>
            linked_append (resolvable block member) order laterLabels
        rw [widerCode, split, List.flatMap_append, sameFront]
        exact List.prefix_append _ _
      · rw [placedBlocks, widerBlocks, ← wholeBlocks, moreBlocks, sameBlocks]
        exact List.prefix_append _ _
      · intro name address found
        rw [programLabels] at found
        rw [widerLabels, moreLabels]
        exact lookup_append_of_some found laterLabels
  | error failure =>
      obtain ⟨error, rfl⟩ := refuses failure linkedResult
      obtain ⟨placed, member, sameLine, reference, isReference, unresolvable⟩ :=
        exists_unresolvable_of_link linkedResult
      apply Extends.refused
      rw [moreBlocks, sameBlocks, List.mem_append] at member
      rcases member with inFront | isLater
      · have resolved := resolvable placed.block (mem_of_mem_placed inFront) reference isReference
        rw [moreLabels] at unresolvable
        exact absurd (resolved.append laterLabels) unresolvable
      · obtain ⟨one, isStatement, line⟩ := line_mem_of_lays laysLater (mem_of_mem_placed isLater)
        rw [sameLine, line]
        exact behind one isStatement

theorem extends_programOf (behind : ∀ one ∈ later, count < one.line)
    (assembles : programOf .standard order front = .ok program) :
    Extends count (front ++ later) program (programOf .standard order (front ++ later)) := by
  obtain ⟨declared, declares, laidOut⟩ := bind_eq_ok_iff.1 assembles
  obtain ⟨layout, laid, linked⟩ := bind_eq_ok_iff.1 laidOut
  have declaresWhole : declarations .standard (front ++ later) =
      later.foldlM (declare .standard) declared := by
    rw [declarations, List.foldlM_append]
    exact congrArg (· >>= _) declares
  cases continues : later.foldlM (declare .standard) declared with
  | error failure =>
      obtain ⟨one, member, _, fails⟩ := exists_of_foldlM_eq_error continues
      obtain ⟨cause, rfl⟩ := refused_of_declare fails
      rw [programOf, declaresWhole, continues]
      exact .refused (behind one member)
  | ok wider =>
      have laidFront := persists_layoutOf (widens_of_foldlM_declare declares continues) .standard
        order front layout laid
      have laidWhole : layoutOf .standard order wider (front ++ later) =
          later.foldlM (lay .standard order wider) layout := by
        rw [layoutOf, List.foldlM_append]
        exact congrArg (· >>= _) laidFront
      rw [programOf, declaresWhole, continues]
      change Extends _ _ _ (layoutOf .standard order wider (front ++ later) >>= link order)
      rw [laidWhole]
      cases laidLater : later.foldlM (lay .standard order wider) layout with
      | error failure =>
          obtain ⟨one, member, reached, fails⟩ := exists_of_foldlM_eq_error laidLater
          cases isAt_of_lay fails with
          | refused cause => exact .refused (behind one member)
          | tooLong isOperand overlong =>
              exact .tooLong (List.mem_append_right front member) (behind one member) isOperand
                overlong
      | ok result =>
          refine extends_of_link behind laidFront laidLater (laidWhole.trans laidLater) linked ?_
          intro failure fails
          obtain ⟨_, _, ⟨_, _, success⟩ | ⟨_, use, _, cause, refused⟩⟩ :=
            link_cases (declaresWhole.trans continues) (laidWhole.trans laidLater)
          · rw [fails] at success
            cases success
          · rw [fails] at refused
            cases refused
            exact ⟨_, rfl⟩

end Extends

/-- Whatever the order of bytes and the source texts: if the first one assembles, then with a line
feed and the second one behind it there is a program that begins with the same code and keeps every
label, or a line behind the first text is to blame. -/
theorem assemble_append (order : ByteOrder) (front back : List Char) {program : Program}
    (assembles : assemble .standard order front = .ok program) :
    Extends (lines front).length (statements (front ++ '\n' :: back)) program
      (assemble .standard order (front ++ '\n' :: back)) := by
  obtain ⟨later, whole, behind⟩ := statements_append_lineFeed front back
  rw [assemble, whole]
  exact extends_programOf behind assembles

/-- Behind a loop, a line that uses its label and one that repeats it. -/
theorem assemble_append_of_loop :
    ∃ program, assemble .standard .little "on: jmp on".toList = .ok program ∧
      program.code = [0xC3, 0, 0] ∧
      Extends 1 (statements "on: jmp on\nAH: db on".toList) program
        (assemble .standard .little "on: jmp on\nAH: db on".toList) ∧
      Extends 1 (statements "on: jmp on\nON: nop".toList) program
        (assemble .standard .little "on: jmp on\nON: nop".toList) := by
  obtain ⟨program, assembles, code⟩ :
      ∃ program, assemble .standard .little "on: jmp on".toList = .ok program ∧
        program.code = [0xC3, 0, 0] := ⟨_, rfl, rfl⟩
  exact ⟨program, assembles, code, assemble_append .little _ "AH: db on".toList assembles,
    assemble_append .little _ "ON: nop".toList assembles⟩

end Intel8085.Assembly
