import Intel8085.Proofs.Assembly.Encoding
import Intel8085.Proofs.Assembly.Labels
import Intel8085.Proofs.FirstFailure

/-!
# What each pass objects to

The first pass objects to labels (`BreaksLabelRule`), the second to statements that cannot be encoded
or for which memory has no room left (`Unencodable`), and the third to labels whose addresses do not
fit where they are used (`IsTooFar`).  Each pass goes through its items in order and stops at the
first that it objects to.
-/

set_option autoImplicit false

namespace Intel8085.Assembly

open Intel8085.Text Intel8085.Source

/-! ## Labels -/

/-- The word is the name of a register or a directive, another word of the language, or a mnemonic. -/
def IsReservedWord (word : String) : Prop :=
  word ∈ reservedWords ∨
    ∃ opcode form, OpcodeTable.standard.form? opcode = some form ∧ form.mnemonic = word

/-- A statement defines a label whose name is no identifier, or reserved, or that of a label which an
earlier statement defines. -/
def BreaksLabelRule (earlier : List NumberedStatement) (one : NumberedStatement) : Prop :=
  ∃ label, one.statement.label = some label ∧
    (isIdentifier label.name = false ∨ IsReservedWord label.name ∨
      label.name ∈ labelNames earlier)

theorem isReserved_iff (name : String) :
    isReserved .standard name = true ↔ IsReservedWord name := by
  rw [isReserved, Bool.or_eq_true, OpcodeTable.hasMnemonic_iff, List.contains_iff_mem,
    IsReservedWord]

theorem labelNames_concat (earlier : List NumberedStatement) (one : NumberedStatement) :
    labelNames (earlier ++ [one]) = labelNames earlier ++ labelNames [one] := by
  rw [labelNames, List.filterMap_append]
  rfl

theorem labelNames_of_label {one : NumberedStatement} {label : Label}
    (isLabel : one.statement.label = some label) : labelNames [one] = [label.name] := by
  simp [labelNames, isLabel]

theorem labelNames_of_no_label {one : NumberedStatement} (noLabel : one.statement.label = none) :
    labelNames [one] = [] := by
  simp [labelNames, noLabel]

/-- The declarations are those of the labels of statements, the last one first. -/
def Declares (earlier : List NumberedStatement) (declared : Declarations) : Prop :=
  declared.map Prod.fst = (labelNames earlier).reverse

theorem declares_nil : Declares [] [] := rfl

section Declare

variable {numbered : List NumberedStatement}

theorem continues_declare :
    Continues numbered (declare .standard) Declares BreaksLabelRule := by
  intro earlier one declared next _ declares success
  rcases declare_cases success with
    ⟨noLabel, rfl⟩ | ⟨label, isLabel, identifier, unreserved, fresh, rfl⟩
  · refine ⟨?_, ?_⟩
    · rintro ⟨label, isLabel, _⟩
      rw [noLabel] at isLabel
      cases isLabel
    · rw [Declares, labelNames_concat, labelNames_of_no_label noLabel, List.append_nil]
      exact declares
  · refine ⟨?_, ?_⟩
    · rintro ⟨other, isOther, broken⟩
      cases Option.some.inj (isLabel.symm.trans isOther)
      rcases broken with noIdentifier | reserved | again
      · rw [identifier] at noIdentifier
        cases noIdentifier
      · rw [← isReserved_iff, unreserved] at reserved
        cases reserved
      · have isDeclared : (declared.lookup label.name).isSome = true := by
          rw [isSome_lookup_iff, declares, List.mem_reverse]
          exact again
        rw [fresh] at isDeclared
        cases isDeclared
    · rw [Declares, labelNames_concat, labelNames_of_label isLabel, List.reverse_append,
        List.map_cons, declares]
      rfl

theorem stops_declare :
    Stops numbered (declare .standard) Declares BreaksLabelRule
      fun one failure => ∃ cause, failure = .refused { line := one.line, cause } := by
  intro earlier one declared failure _ declares fails
  cases isLabel : one.statement.label with
  | none =>
      rw [declare, isLabel] at fails
      cases fails
  | some label =>
      simp only [declare, isLabel] at fails
      split at fails
      · rename_i noIdentifier
        cases fails
        exact ⟨⟨label, isLabel, Or.inl (by simpa using noIdentifier)⟩, _, rfl⟩
      · split at fails
        · rename_i reserved
          cases fails
          exact ⟨⟨label, isLabel, Or.inr (Or.inl ((isReserved_iff _).1 reserved))⟩, _, rfl⟩
        · split at fails
          · rename_i firstLine found
            cases fails
            have isDeclared : label.name ∈ declared.map Prod.fst := by
              rw [← isSome_lookup_iff, found]
              rfl
            rw [declares, List.mem_reverse] at isDeclared
            exact ⟨⟨label, isLabel, Or.inr (Or.inr isDeclared)⟩, _, rfl⟩
          · cases fails

end Declare

/-! ## Statements -/

/-- What a statement emits; one without an instruction emits nothing. -/
def Emits (names : List String) (one : NumberedStatement) (emission : Emission) : Prop :=
  match one.statement.instruction with
  | none => emission = { size := 0, uses := [] }
  | some instruction => Encodes names one.line instruction emission

def totalSize (emissions : List Emission) : Nat :=
  (emissions.map Emission.size).sum

/-- A statement has an instruction or data that cannot be encoded, or only to more bytes than memory
has left behind the earlier statements. -/
def Unencodable (names : List String) (earlier : List NumberedStatement) (one : NumberedStatement) :
    Prop :=
  ∃ instruction, one.statement.instruction = some instruction ∧
    ∀ emissions emission, List.Forall₂ (Emits names) earlier emissions →
      Encodes names one.line instruction emission →
        longestProgram < totalSize emissions + emission.size

theorem emits_unique {names : List String} {one : NumberedStatement} {first second : Emission}
    (emits : Emits names one first) (emitsToo : Emits names one second) : first = second := by
  rw [Emits] at emits emitsToo
  cases hasInstruction : one.statement.instruction with
  | none =>
      rw [hasInstruction] at emits emitsToo
      exact emits.trans emitsToo.symm
  | some instruction =>
      rw [hasInstruction] at emits emitsToo
      exact encodes_unique emits emitsToo

theorem emissions_unique {names : List String} {numbered : List NumberedStatement}
    {first second : List Emission} (emits : List.Forall₂ (Emits names) numbered first)
    (emitsToo : List.Forall₂ (Emits names) numbered second) : first = second := by
  induction emits generalizing second with
  | nil => exact (List.forall₂_nil_left_iff.1 emitsToo).symm
  | cons emitsOne _ inductionHypothesis =>
      cases emitsToo with
      | cons emitsOneToo others =>
          rw [emits_unique emitsOne emitsOneToo, inductionHypothesis others]

theorem totalSize_concat (emissions : List Emission) (emission : Emission) :
    totalSize (emissions ++ [emission]) = totalSize emissions + emission.size := by
  simp [totalSize]

/-- A label has the address behind all that statements emit before its definition. -/
def HasAddress (names : List String) (numbered : List NumberedStatement) (name : String)
    (address : Nat) : Prop :=
  ∃ earlier one label emissions, earlier ++ [one] <+: numbered ∧
    one.statement.label = some label ∧ label.name = name ∧
    List.Forall₂ (Emits names) earlier emissions ∧ address = totalSize emissions

/-- The layout is that of statements: it has their sizes and uses, and the addresses of their
labels. -/
structure LaysOut (names : List String) (earlier : List NumberedStatement) (layout : Layout) :
    Prop where
  emits : ∃ emissions, List.Forall₂ (Emits names) earlier emissions ∧
    totalSize emissions = layout.size ∧
    layout.blocks.reverse.flatMap (fun placed => placed.block.uses) =
      emissions.flatMap Emission.uses
  addresses : ∀ name address, (name, address) ∈ layout.labels →
    HasAddress names earlier name address

theorem laysOut_nil (names : List String) :
    LaysOut names [] { size := 0, pending := "", blocks := [], labels := [] } where
  emits := ⟨[], .nil, rfl, rfl⟩
  addresses := fun _ _ member => absurd member List.not_mem_nil

theorem HasAddress.concat {names : List String} {earlier : List NumberedStatement} {name : String}
    {address : Nat} (has : HasAddress names earlier name address) (one : NumberedStatement) :
    HasAddress names (earlier ++ [one]) name address := by
  obtain ⟨before, other, label, emissions, reached, rest⟩ := has
  exact ⟨before, other, label, emissions, reached.trans (List.prefix_append earlier [one]), rest⟩

/-- A statement fails when its instruction or data does. -/
theorem blockOf_of_lay {order : ByteOrder} {declared : Declarations} {layout : Layout}
    {one : NumberedStatement} {failure : Failure}
    (fails : lay .standard order declared layout one = .error failure) :
    ∃ instruction, one.statement.instruction = some instruction ∧
      blockOf .standard order declared one.line layout.size
        (shownLabel layout.pending one.statement.label) instruction = .error failure := by
  cases hasInstruction : one.statement.instruction with
  | none =>
      rw [lay_of_bare hasInstruction] at fails
      cases fails
  | some instruction =>
      rw [lay_of_instruction hasInstruction] at fails
      rcases bind_eq_error_iff.1 fails with refused | ⟨_, _, impossible⟩
      · exact ⟨instruction, rfl, refused⟩
      · cases impossible

theorem isAt_of_lay {order : ByteOrder} {declared : Declarations} {layout : Layout}
    {one : NumberedStatement} {failure : Failure}
    (fails : lay .standard order declared layout one = .error failure) :
    failure.IsAt one.line (operandsIn one) := by
  obtain ⟨instruction, hasInstruction, refused⟩ := blockOf_of_lay fails
  rw [operandsIn, hasInstruction]
  exact isAt_of_blockOf refused

section Lay

variable {names : List String} {declared : Declarations}
  (sameNames : ∀ name, name ∈ declared.map Prod.fst ↔ name ∈ names) {order : ByteOrder}
  {numbered earlier : List NumberedStatement} {one : NumberedStatement} {layout : Layout}

/-- The layout behind one more statement, where the labels are those that were defined before and by
the statement. -/
theorem laysOut_concat (laysOut : LaysOut names earlier layout) {emission : Emission}
    (emitsOne : Emits names one emission) {next : Layout}
    (size : next.size = layout.size + emission.size)
    (uses : next.blocks.reverse.flatMap (fun placed => placed.block.uses) =
      layout.blocks.reverse.flatMap (fun placed => placed.block.uses) ++ emission.uses)
    (labels : next.labels = (layout.define one.statement.label).labels) :
    LaysOut names (earlier ++ [one]) next := by
  obtain ⟨emissions, emits, sameSize, sameUses⟩ := laysOut.emits
  constructor
  case emits =>
    refine ⟨emissions ++ [emission], List.rel_append emits (.cons emitsOne .nil), ?_, ?_⟩
    · rw [totalSize_concat, sameSize, size]
    · rw [uses, sameUses, List.flatMap_append, List.flatMap_singleton]
  case addresses =>
    intro name address member
    rw [labels, define_eq] at member
    rcases List.mem_append.1 member with new | old
    · cases isLabel : one.statement.label with
      | none =>
          rw [isLabel] at new
          exact absurd new List.not_mem_nil
      | some label =>
          rw [isLabel] at new
          cases List.mem_singleton.1 new
          exact ⟨earlier, one, label, emissions, List.prefix_rfl, isLabel, rfl, emits,
            sameSize.symm⟩
    · exact (laysOut.addresses name address old).concat one

include sameNames

theorem continues_lay :
    Continues numbered (lay .standard order declared) (LaysOut names) (Unencodable names) := by
  intro earlier one layout next _ laysOut success
  cases hasInstruction : one.statement.instruction with
  | none =>
      rw [lay_of_bare hasInstruction] at success
      cases success
      have emitsNothing : Emits names one { size := 0, uses := [] } := by
        rw [Emits, hasInstruction]
      constructor
      · rintro ⟨instruction, isInstruction, _⟩
        rw [hasInstruction] at isInstruction
        cases isInstruction
      · refine laysOut_concat laysOut emitsNothing ?_ ?_ rfl
        · rw [define_eq, Nat.add_zero]
        · rw [define_eq, List.append_nil]
  | some instruction =>
      rw [lay_of_instruction hasInstruction, bind_eq_ok_iff] at success
      obtain ⟨block, emitted, appended⟩ := success
      cases pure_eq_ok_iff.1 appended
      obtain ⟨encodes, fits⟩ := encodes_of_blockOf sameNames emitted
      have emitsBlock : Emits names one { size := block.bytes.length, uses := block.uses } := by
        rw [Emits, hasInstruction]
        exact encodes
      constructor
      · rintro ⟨other, isOther, noRoom⟩
        cases Option.some.inj (hasInstruction.symm.trans isOther)
        obtain ⟨emissions, emits, size, _⟩ := laysOut.emits
        have beyond := noRoom emissions _ emits encodes
        rw [size] at beyond
        exact Nat.not_lt_of_le fits beyond
      · refine laysOut_concat laysOut emitsBlock ?_ ?_ ?_
        · rw [Layout.append, define_eq]
        · rw [Layout.append, define_eq, List.reverse_cons, List.flatMap_append,
            List.flatMap_singleton]
        · rfl

/-- Where every numeral can be read, a statement is refused only when it cannot be encoded. -/
theorem stops_lay
    (moderate : ∀ one ∈ numbered, ∀ operand ∈ operandsIn one, ¬ IsOverlong operand) :
    Stops numbered (lay .standard order declared) (LaysOut names) (Unencodable names)
      fun one failure => ∃ cause, failure = .refused { line := one.line, cause } := by
  intro earlier one layout failure reached laysOut fails
  have readable := moderate one (mem_of_reached reached)
  obtain ⟨instruction, hasInstruction, refused⟩ := blockOf_of_lay fails
  constructor
  · refine ⟨instruction, hasInstruction, ?_⟩
    intro others emission emitsToo encodes
    -- were it encoded to bytes that fit, it would have a block and not be refused
    by_contra room
    obtain ⟨emissions, emits, size, _⟩ := laysOut.emits
    rw [emissions_unique emitsToo emits, size] at room
    rw [operandsIn, hasInstruction] at readable
    obtain ⟨block, emitted⟩ := exists_block_of_encodes sameNames encodes readable
      (Nat.le_of_not_lt room)
    rw [emitted] at refused
    cases refused
  · cases isAt_of_lay fails with
    | refused cause => exact ⟨cause, rfl⟩
    | tooLong isOperand overlong => exact absurd overlong (readable _ isOperand)

end Lay

end Intel8085.Assembly
