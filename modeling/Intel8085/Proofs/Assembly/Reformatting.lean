import Intel8085.Proofs.Agreement
import Intel8085.Proofs.Assembly.Outcomes
import Intel8085.Proofs.Source.Reformatting

/-!
# Programs of reformatted text

How a source text is laid out, and in which case its letters are, has no part in what it assembles
to.  A text that is written in another way gives the same code and the same labels, or it is refused
for a cause of the same kind at the same statement (`assemble_of_edits`).  The two assemblies are taken
side by side, stage by stage: what they come to differs at most in the numbers of lines and in the
spelling of labels.

Blanks around a comma within the first word of a line are no such change, since they cut the word in
two (`outcome_of_cut_word`).
-/

set_option autoImplicit false

namespace Intel8085.Assembly

open Intel8085.Text Intel8085.Source

/-- The same failure on the line that its line has moved to, with a cause of the same kind. -/
inductive Failure.Matches (moved : Nat → Nat) : Failure → Failure → Prop where
  | refused {line : Nat} {cause other : Cause} (sameKind : other.kind = cause.kind) :
      Failure.Matches moved (.refused { line, cause })
        (.refused { line := moved line, cause := other })
  | numberTooLong : Failure.Matches moved .numberTooLong .numberTooLong
  | operandWithoutValue : Failure.Matches moved .operandWithoutValue .operandWithoutValue
  | patchOutsideProgram : Failure.Matches moved .patchOutsideProgram .patchOutsideProgram

/-- The same labels, defined on lines of their own. -/
def SameNames (declared other : Declarations) : Prop :=
  other.map Prod.fst = declared.map Prod.fst

/-- Blocks that emit the same bytes for statements of which one has moved. -/
structure Block.Matches (moved : Nat → Nat) (one other : Block) : Prop where
  line : other.line = moved one.line
  bytes : other.bytes = one.bytes
  references : other.references = one.references

structure PlacedBlock.Matches (moved : Nat → Nat) (one other : PlacedBlock) : Prop where
  address : other.address = one.address
  block : one.block.Matches moved other.block

structure Layout.Matches (moved : Nat → Nat) (one other : Layout) : Prop where
  size : other.size = one.size
  blocks : List.Forall₂ (PlacedBlock.Matches moved) one.blocks other.blocks
  labels : other.labels = one.labels

structure Program.Matches (one other : Program) : Prop where
  code : other.code = one.code
  labels : other.labels = one.labels

section Moved

variable {moved : Nat → Nat}

/-! ## Refusals -/

section Results

variable {First Second : Type} {relation : First → Second → Prop}

theorem corresponds_refuse (line : Nat) {cause other : Cause} (sameKind : other.kind = cause.kind) :
    Corresponds (Failure.Matches moved) relation (refuse line cause) (refuse (moved line) other) :=
  .failure (.refused sameKind)

theorem corresponds_refuseNumber (line value : Nat) (cause : Cause) :
    Corresponds (Failure.Matches moved) relation (refuseNumber line value cause)
      (refuseNumber (moved line) value cause) := by
  rw [refuseNumber, refuseNumber]
  split
  · exact corresponds_refuse line rfl
  · exact .failure .numberTooLong

end Results

theorem corresponds_checkOperands (line : Nat) (operands : List String) :
    Corresponds (Failure.Matches moved) Eq (checkOperands line operands)
      (checkOperands (moved line) operands) := by
  rw [checkOperands, checkOperands]
  split
  · exact corresponds_refuse line rfl
  · exact .success rfl

theorem corresponds_immediateOf (order : ByteOrder) (line width : Nat) (value : Option Value) :
    Corresponds (Failure.Matches moved) Eq (immediateOf order line width value)
      (immediateOf order (moved line) width value) := by
  rcases value with _ | number | name
  · rw [immediateOf, immediateOf]
    split
    · exact .success rfl
    · exact .failure .operandWithoutValue
  · rw [immediateOf, immediateOf]
    split
    · exact .success rfl
    · split
      · exact .success rfl
      · exact corresponds_refuseNumber line number _
  · exact .success rfl

/-! ## Blocks -/

section Names

variable {declared other : Declarations} (same : SameNames declared other)
include same

theorem isSome_lookup_of_sameNames (name : String) :
    (other.lookup name).isSome = (declared.lookup name).isSome := by
  have names : other.map Prod.fst = declared.map Prod.fst := same
  rw [Bool.eq_iff_iff, isSome_lookup_iff, isSome_lookup_iff, names]

theorem corresponds_valueOf (line : Nat) (operand : String) :
    Corresponds (Failure.Matches moved) Eq (valueOf declared line operand)
      (valueOf other (moved line) operand) := by
  rw [valueOf, valueOf, isSome_lookup_of_sameNames same]
  split
  · exact .success rfl
  · split
    · exact .success rfl
    · exact .failure .numberTooLong
    · split
      · exact corresponds_refuse line rfl
      · exact corresponds_refuse line rfl

variable (table : OpcodeTable) (order : ByteOrder) (line before : Nat) (label otherLabel : String)
  (instruction : Instruction)

theorem corresponds_formFor :
    Corresponds (Failure.Matches moved) Eq (formFor table declared line instruction)
      (formFor table other (moved line) instruction) := by
  unfold formFor
  simp only [foldlM_classify]
  split
  · exact corresponds_refuse line rfl
  · refine (corresponds_checkOperands line instruction.operands).bind fun _ _ _ => ?_
    refine ((Corresponds.mapM (corresponds_valueOf same line) _).map _).bind ?_
    rintro classified _ rfl
    split
    · exact corresponds_refuse line rfl
    · split
      · exact corresponds_refuse line rfl
      · exact .success rfl

theorem corresponds_instructionBlock :
    Corresponds (Failure.Matches moved) (Block.Matches moved)
      (instructionBlock table order declared line before label instruction)
      (instructionBlock table order other (moved line) before otherLabel instruction) := by
  refine (corresponds_formFor same table line instruction).bind ?_
  rintro ⟨opcode, form, value⟩ _ rfl
  -- the length of the program is checked before the immediate
  change Corresponds _ _ (if _ then refuse line .programTooLong >>= _ else _)
    (if _ then refuse (moved line) .programTooLong >>= _ else _)
  split
  · exact corresponds_refuse line rfl
  · refine (corresponds_immediateOf order line form.width value).bind ?_
    rintro immediate _ rfl
    exact .success ⟨rfl, rfl, rfl⟩

theorem corresponds_dataValue (operand : String) :
    Corresponds (Failure.Matches moved) Eq (dataValue declared line operand)
      (dataValue other (moved line) operand) := by
  refine (corresponds_valueOf same line operand).bind ?_
  rintro (value | name) _ rfl
  · simp only
    split
    · exact .success rfl
    · exact corresponds_refuseNumber line value _
  · exact .success rfl

theorem corresponds_dataBlock :
    Corresponds (Failure.Matches moved) (Block.Matches moved)
      (dataBlock declared line before label instruction)
      (dataBlock other (moved line) before otherLabel instruction) := by
  unfold dataBlock
  simp only
  split
  · exact corresponds_refuse line rfl
  · refine (corresponds_checkOperands line instruction.operands).bind fun _ _ _ => ?_
    split
    · exact corresponds_refuse line rfl
    · refine (Corresponds.mapM (corresponds_dataValue same line) _).bind ?_
      rintro bytes _ rfl
      exact .success ⟨rfl, rfl, rfl⟩

theorem corresponds_blockOf :
    Corresponds (Failure.Matches moved) (Block.Matches moved)
      (blockOf table order declared line before label instruction)
      (blockOf table order other (moved line) before otherLabel instruction) := by
  rw [blockOf, blockOf]
  split
  · exact corresponds_dataBlock same line before label otherLabel instruction
  · exact corresponds_instructionBlock same table order line before label otherLabel instruction

end Names

/-! ## Declarations -/

variable {one other : NumberedStatement} (same : one.Matches moved other)
include same

theorem corresponds_declare (table : OpcodeTable) {declared otherDeclared : Declarations}
    (names : SameNames declared otherDeclared) :
    Corresponds (Failure.Matches moved) SameNames (declare table declared one)
      (declare table otherDeclared other) := by
  rw [declare, declare, same.line]
  obtain ⟨noLabel, otherNoLabel⟩ | ⟨label, otherLabel, defines, otherDefines, sameName⟩ :=
    same.label_cases
  · rw [noLabel, otherNoLabel]
    exact .success names
  · have isDeclared := isSome_lookup_of_sameNames names label.name
    rw [defines, otherDefines]
    simp only [sameName]
    -- the cause shows the label as it is written, so that only its kind is the same
    split
    · exact corresponds_refuse one.line rfl
    · split
      · exact corresponds_refuse one.line rfl
      · cases found : declared.lookup label.name with
        | some firstLine =>
            rw [found, Option.isSome_some, Option.isSome_iff_exists] at isDeclared
            obtain ⟨otherLine, otherFound⟩ := isDeclared
            rw [otherFound]
            exact corresponds_refuse one.line rfl
        | none =>
            rw [found, Option.isSome_none, Option.isSome_eq_false_iff, Option.isNone_iff_eq_none]
              at isDeclared
            rw [isDeclared]
            exact .success (congrArg (label.name :: ·) names)

theorem Layout.Matches.define {layout otherLayout : Layout}
    (matching : layout.Matches moved otherLayout) :
    (layout.define one.statement.label).Matches moved
      (otherLayout.define other.statement.label) := by
  obtain ⟨size, blocks, labels⟩ := matching
  obtain ⟨noLabel, otherNoLabel⟩ | ⟨label, otherLabel, defines, otherDefines, sameName⟩ :=
    same.label_cases
  · rw [noLabel, otherNoLabel]
    exact ⟨size, blocks, labels⟩
  · rw [defines, otherDefines]
    refine ⟨size, blocks, ?_⟩
    simp only [Layout.define, sameName, size, labels]

omit same in
theorem Layout.Matches.append {layout otherLayout : Layout} {block otherBlock : Block}
    (matching : layout.Matches moved otherLayout) (matchingBlock : block.Matches moved otherBlock) :
    (layout.append block).Matches moved (otherLayout.append otherBlock) where
  size := by rw [Layout.append, Layout.append, matching.size, matchingBlock.bytes]
  blocks := .cons ⟨matching.size, matchingBlock⟩ matching.blocks
  labels := matching.labels

theorem corresponds_lay (table : OpcodeTable) (order : ByteOrder)
    {declared otherDeclared : Declarations} (names : SameNames declared otherDeclared)
    {layout otherLayout : Layout} (matching : layout.Matches moved otherLayout) :
    Corresponds (Failure.Matches moved) (Layout.Matches moved)
      (lay table order declared layout one) (lay table order otherDeclared otherLayout other) := by
  cases hasInstruction : one.statement.instruction with
  | none =>
      rw [lay_of_bare hasInstruction, lay_of_bare (same.instruction.trans hasInstruction)]
      exact .success (matching.define same)
  | some instruction =>
      rw [lay_of_instruction hasInstruction,
        lay_of_instruction (same.instruction.trans hasInstruction), same.line, matching.size]
      refine (corresponds_blockOf names table order one.line layout.size _ _ instruction).bind ?_
      intro block otherBlock matchingBlock
      exact .success ((matching.define same).append matchingBlock)

omit same

section Statements

variable (table : OpcodeTable) (order : ByteOrder) {numbered others : List NumberedStatement}

theorem corresponds_declarations
    (together : List.Forall₂ (NumberedStatement.Matches moved) numbered others) :
    Corresponds (Failure.Matches moved) SameNames (declarations table numbered)
      (declarations table others) := by
  refine Corresponds.foldlM ?_ together rfl
  intro declared otherDeclared one other names same
  exact corresponds_declare same table names

theorem corresponds_layoutOf {declared otherDeclared : Declarations}
    (names : SameNames declared otherDeclared)
    (together : List.Forall₂ (NumberedStatement.Matches moved) numbered others) :
    Corresponds (Failure.Matches moved) (Layout.Matches moved)
      (layoutOf table order declared numbered) (layoutOf table order otherDeclared others) := by
  refine Corresponds.foldlM ?_ together ⟨rfl, .nil, rfl⟩
  intro layout otherLayout one other matching same
  exact corresponds_lay same table order names matching

end Statements

/-! ## Addresses -/

theorem corresponds_addressBytes (order : ByteOrder) (labels : List (String × Nat)) (line : Nat)
    (reference : Reference) :
    Corresponds (Failure.Matches moved) Eq (addressBytes order labels line reference)
      (addressBytes order labels (moved line) reference) := by
  rw [addressBytes, addressBytes]
  split
  · exact corresponds_refuse line rfl
  · split
    · exact .success rfl
    · exact corresponds_refuse line rfl

theorem corresponds_overwriteCode (code : Array UInt8) (position : Nat) (bytes : List UInt8) :
    Corresponds (Failure.Matches moved) Eq (overwriteCode code position bytes)
      (overwriteCode code position bytes) := by
  cases result : overwriteCode code position bytes with
  | ok overwritten => exact .success rfl
  | error failure =>
      rw [eq_of_overwriteCode_eq_error result]
      exact .failure .patchOutsideProgram

section Placed

variable {placed otherPlaced : PlacedBlock} (matching : placed.Matches moved otherPlaced)
  (order : ByteOrder) (labels : List (String × Nat)) (code : Array UInt8)
include matching

theorem corresponds_patchCode (reference : Reference) :
    Corresponds (Failure.Matches moved) Eq (patchCode order labels placed code reference)
      (patchCode order labels otherPlaced code reference) := by
  rw [patchCode, patchCode, matching.address, matching.block.line]
  refine (corresponds_addressBytes order labels placed.block.line reference).bind ?_
  rintro bytes _ rfl
  exact corresponds_overwriteCode code _ bytes

theorem corresponds_patchBlockCode :
    Corresponds (Failure.Matches moved) Eq (patchBlockCode order labels code placed)
      (patchBlockCode order labels code otherPlaced) := by
  have together : List.Forall₂ Eq placed.block.references placed.block.references :=
    List.forall₂_same.2 fun _ _ => rfl
  rw [patchBlockCode, patchBlockCode, matching.block.references]
  refine .foldlM ?_ together rfl
  rintro code _ reference _ rfl rfl
  exact corresponds_patchCode matching order labels code reference

end Placed

theorem flatMap_bytes_of_matches {blocks others : List PlacedBlock}
    (matching : List.Forall₂ (PlacedBlock.Matches moved) blocks others) :
    (others.flatMap fun placed => placed.block.bytes) =
      blocks.flatMap fun placed => placed.block.bytes := by
  induction matching with
  | nil => rfl
  | cons first _ inductionHypothesis =>
      rw [List.flatMap_cons, List.flatMap_cons, first.block.bytes, inductionHypothesis]

theorem corresponds_link (order : ByteOrder) {layout otherLayout : Layout}
    (matching : layout.Matches moved otherLayout) :
    Corresponds (Failure.Matches moved) Program.Matches (link order layout)
      (link order otherLayout) := by
  have blocks := List.forall₂_reverse_iff.2 matching.blocks
  rw [link_eq, link_eq, matching.labels, flatMap_bytes_of_matches blocks]
  have patched : ∀ code : Array UInt8, Corresponds (Failure.Matches moved) Eq
      (layout.blocks.reverse.foldlM (patchBlockCode order layout.labels.reverse) code)
      (otherLayout.blocks.reverse.foldlM (patchBlockCode order layout.labels.reverse) code) := by
    intro code
    refine .foldlM ?_ blocks rfl
    rintro code _ placed otherPlaced rfl matchingBlock
    exact corresponds_patchBlockCode matchingBlock order _ code
  refine (patched _).bind ?_
  rintro code _ rfl
  exact .success ⟨rfl, congrArg List.reverse matching.labels⟩

/-! ## Programs -/

theorem corresponds_programOf (table : OpcodeTable) (order : ByteOrder)
    {numbered others : List NumberedStatement}
    (together : List.Forall₂ (NumberedStatement.Matches moved) numbered others) :
    Corresponds (Failure.Matches moved) Program.Matches (programOf table order numbered)
      (programOf table order others) := by
  unfold programOf
  refine (corresponds_declarations table together).bind fun declared otherDeclared names => ?_
  refine (corresponds_layoutOf table order names together).bind fun layout otherLayout matching => ?_
  exact corresponds_link order matching

end Moved

/-- The outcomes of a text and of the same text written in another way.  An error stays an error of
its kind at its statement, which stands on the line that its own line has moved to. -/
inductive SameOutcome (moved : Nat → Nat) (numbered others : List NumberedStatement) :
    Except Failure Program → Except Failure Program → Prop where
  | assembled {program other : Program} (code : other.code = program.code)
      (labels : other.labels = program.labels) :
      SameOutcome moved numbered others (.ok program) (.ok other)
  | refused {error other : SourceError} {one same : NumberedStatement}
      (kind : other.cause.kind = error.cause.kind) (line : other.line = moved error.line)
      (member : one ∈ numbered) (offends : one.line = error.line) (memberAgain : same ∈ others)
      (sameStatement : one.Matches moved same) :
      SameOutcome moved numbered others (.error (.refused error)) (.error (.refused other))
  | tooLong : SameOutcome moved numbered others (.error .numberTooLong) (.error .numberTooLong)

/-- Whatever the order of bytes and the text: written in another way it has the same outcome. -/
theorem assemble_of_edits (order : ByteOrder) {source again : List Char} {moved : Nat → Nat}
    (edits : Edits source again moved) :
    SameOutcome moved (statements source) (statements again) (assemble .standard order source)
      (assemble .standard order again) := by
  have together := matches_of_edits edits
  have corresponds := corresponds_programOf .standard order together
  rw [assemble, assemble]
  cases result : programOf .standard order (statements source) with
  | ok program =>
      rw [result] at corresponds
      generalize programOf .standard order (statements again) = resultAgain at corresponds ⊢
      cases corresponds with
      | success matching => exact .assembled matching.code matching.labels
  | error failure =>
      obtain ⟨one, member, isAt⟩ := exists_isAt_of_programOf result
      obtain ⟨same, memberAgain, sameStatement⟩ := exists_of_mem_left together member
      rw [result] at corresponds
      generalize programOf .standard order (statements again) = resultAgain at corresponds ⊢
      cases corresponds with
      | failure matching =>
          cases isAt with
          | refused cause =>
              cases matching with
              | refused sameKind =>
                  exact .refused sameKind rfl member rfl memberAgain sameStatement
          | tooLong _ _ =>
              cases matching with
              | numberTooLong => exact .tooLong

/-- In capitals, behind a comment and with blanks around its comma, a line with an undefined label is
refused as before. -/
theorem assemble_of_edits_of_undefined :
    ∃ moved, Edits "on: mvi b,off".toList ";\nON: MVI B , OFF".toList moved ∧
      assemble .standard .little "on: mvi b,off".toList =
        .error (.refused { line := 1, cause := .undefinedLabel "OFF" }) ∧ moved 1 = 2 ∧
      SameOutcome moved (statements "on: mvi b,off".toList) (statements ";\nON: MVI B , OFF".toList)
        (assemble .standard .little "on: mvi b,off".toList)
        (assemble .standard .little ";\nON: MVI B , OFF".toList) := by
  have letters : Edit "on: mvi b,off".toList "ON: MVI B,OFF".toList id := edit_capitals _
  have noBlanks : AllBlank [] := by decide
  have space : IsGap [' '] := by decide
  have inserted : Edit "ON: MVI B,OFF".toList ";\nON: MVI B,OFF".toList (behindInserted 0) := by
    have comment : IsBare ([] ++ ";".toList) := .intro noBlanks (.comment [])
    have cut : lines "ON: MVI B,OFF".toList = [] ++ ["ON: MVI B,OFF".toList] := by decide
    exact .inserted cut comment (by decide)
  have spaced : Edit ";\nON: MVI B,OFF".toList ";\nON: MVI B , OFF".toList id := by
    have label : IsWord ("ON".toList ++ [':']) := by decide
    have mnemonic : IsWord "MVI".toList := by decide
    have operand : ';' ∉ "B".toList := by decide
    have cut : lines ";\nON: MVI B,OFF".toList = [";".toList] ++ ["ON: MVI B,OFF".toList] := by
      decide
    exact .line cut (.aroundComma (.labelled noBlanks label space mnemonic) space operand noBlanks
      noBlanks space.blank space.blank "OFF".toList) (by decide)
  have edits := Edits.more (.more (.more .none letters) inserted) spaced
  exact ⟨_, edits, rfl, by decide, assemble_of_edits .little edits⟩

/-- Blanks in front of a comma of the first word change the outcome.  They make a label that is no
identifier an unknown mnemonic, and they set a label free that nothing defined before, so that the
text is refused at another line. -/
theorem outcome_of_cut_word :
    (assemble .standard .big "A,B: NOP".toList =
        .error (.refused { line := 1, cause := .invalidLabel "A,B" }) ∧
      assemble .standard .big "A ,B: NOP".toList =
        .error (.refused { line := 1, cause := .unknownMnemonic "A" }) ∧
      ¬ SameOutcome id (statements "A,B: NOP".toList) (statements "A ,B: NOP".toList)
        (assemble .standard .big "A,B: NOP".toList)
        (assemble .standard .big "A ,B: NOP".toList)) ∧
    assemble .standard .big "DB X\nX:,B".toList =
        .error (.refused { line := 1, cause := .undefinedLabel "X" }) ∧
      assemble .standard .big "DB X\nX: ,B".toList =
        .error (.refused { line := 2, cause := .unknownMnemonic ",B" }) ∧
      ¬ SameOutcome id (statements "DB X\nX:,B".toList) (statements "DB X\nX: ,B".toList)
        (assemble .standard .big "DB X\nX:,B".toList)
        (assemble .standard .big "DB X\nX: ,B".toList) := by
  have label : assemble .standard .big "A,B: NOP".toList =
      .error (.refused { line := 1, cause := .invalidLabel "A,B" }) := by decide
  have mnemonic : assemble .standard .big "A ,B: NOP".toList =
      .error (.refused { line := 1, cause := .unknownMnemonic "A" }) := by decide
  have undefined : assemble .standard .big "DB X\nX:,B".toList =
      .error (.refused { line := 1, cause := .undefinedLabel "X" }) := by decide
  have defined : assemble .standard .big "DB X\nX: ,B".toList =
      .error (.refused { line := 2, cause := .unknownMnemonic ",B" }) := by decide
  refine ⟨⟨label, mnemonic, ?_⟩, undefined, defined, ?_⟩
  · rw [label, mnemonic]
    intro same
    cases same with
    | refused sameKind => cases sameKind
  · rw [undefined, defined]
    intro same
    cases same with
    | refused sameKind => cases sameKind

end Intel8085.Assembly
