import Intel8085.Proofs.Assembly.FirstError
import Intel8085.Proofs.Assembly.Identifiers
import Intel8085.Proofs.Assembly.LabelErrors
import Intel8085.Proofs.Source.LabelDefinitions

/-!
# The rules for labels

The label of a line must be a name, in capitals it must not be a reserved word, and no two lines may
define labels that are the same in capitals.  The rules are stated of the lines of a source text
alone (`HasProperLabels`), and so is the error for a line that breaks one (`Offends`).  A text gets
past the first pass exactly when its labels follow the rules, and otherwise it is refused for the
first line that offends (`assemble_checksLabels`).  Letters beyond ASCII count as letters if their
capitals are letters of ASCII.
-/

set_option autoImplicit false

namespace Intel8085.Assembly

open Intel8085.Text Intel8085.Source

/-- The labels of a source text follow the rules, where the further letters count as letters. -/
structure HasProperLabels (further source : List Char) : Prop where
  named : ∀ number written, DefinesLabel source number written → IsName further written.toList
  unreserved : ∀ number written, DefinesLabel source number written →
    ¬ IsReservedWord (upperCase written)
  distinct : ∀ number written other otherWritten, DefinesLabel source number written →
    DefinesLabel source other otherWritten → upperCase written = upperCase otherWritten →
      number = other

/-- The label of a line breaks a rule, and the cause is that of the first rule that it breaks. -/
inductive Offends (further source : List Char) (number : Nat) : Cause → Prop where
  | invalid {written : String} (defines : DefinesLabel source number written)
      (misnamed : ¬ IsName further written.toList) :
      Offends further source number (.invalidLabel written)
  | reserved {written : String} (defines : DefinesLabel source number written)
      (named : IsName further written.toList) (reserved : IsReservedWord (upperCase written)) :
      Offends further source number (.reservedLabel written)
  | duplicate {written firstWritten : String} {first : Nat}
      (defines : DefinesLabel source number written) (named : IsName further written.toList)
      (unreserved : ¬ IsReservedWord (upperCase written))
      (definesFirst : DefinesLabel source first firstWritten) (earlier : first < number)
      (same : upperCase firstWritten = upperCase written) :
      Offends further source number (.duplicateLabel written first)

/-- The first line with a label that breaks a rule. -/
structure IsFirstOffence (further source : List Char) (number : Nat) (cause : Cause) : Prop where
  offends : Offends further source number cause
  first : ∀ earlier other, earlier < number → ¬ Offends further source earlier other

/-- Labels follow the rules exactly when no line offends. -/
theorem hasProperLabels_iff {further source : List Char} :
    HasProperLabels further source ↔ ∀ number cause, ¬ Offends further source number cause := by
  constructor
  · intro proper number cause offends
    cases offends with
    | invalid defines misnamed => exact misnamed (proper.named _ _ defines)
    | reserved defines _ reserved => exact proper.unreserved _ _ defines reserved
    | duplicate defines _ _ definesFirst earlier same =>
        have sameLine := proper.distinct _ _ _ _ definesFirst defines same
        omega
  · intro none
    have named : ∀ number written, DefinesLabel source number written →
        IsName further written.toList := by
      intro number written defines
      by_contra misnamed
      exact none number _ (.invalid defines misnamed)
    have unreserved : ∀ number written, DefinesLabel source number written →
        ¬ IsReservedWord (upperCase written) := by
      intro number written defines reserved
      exact none number _ (.reserved defines (named _ _ defines) reserved)
    refine ⟨named, unreserved, ?_⟩
    intro number written other otherWritten defines definesOther same
    -- of two lines with the same label the later one offends
    rcases Nat.lt_trichotomy number other with before | sameLine | behind
    · exact absurd (.duplicate definesOther (named _ _ definesOther) (unreserved _ _ definesOther)
        defines before same) (none other _)
    · exact sameLine
    · exact absurd (.duplicate defines (named _ _ defines) (unreserved _ _ defines) definesOther
        behind same.symm) (none number _)

/-! ## Statements and their lines -/

section Statements

variable {source : List Char} {earlier : List NumberedStatement} {one : NumberedStatement}
  (reached : earlier ++ [one] <+: statements source)
include reached

theorem line_lt_of_reached {first : NumberedStatement} (member : first ∈ earlier) :
    first.line < one.line := by
  have increasing := (pairwise_line_statements source).sublist reached.sublist
  exact (List.pairwise_append.1 increasing).2.2 first member one List.mem_cons_self

/-- The statements of earlier lines stand before. -/
theorem mem_earlier_of_line_lt {first : NumberedStatement} (member : first ∈ statements source)
    (before : first.line < one.line) : first ∈ earlier := by
  obtain ⟨later, whole⟩ := reached
  have increasing := pairwise_line_statements source
  rw [← whole] at member increasing
  simp only [List.append_assoc, List.singleton_append, List.mem_append, List.mem_cons,
    List.pairwise_append, List.pairwise_cons] at member increasing
  rcases member with inFront | rfl | behind
  · exact inFront
  · omega
  · have later := increasing.2.1.1 first behind
    omega

end Statements

/-- The label that a line defines is that of its statement. -/
theorem label_of_definesLabel {source : List Char} {one : NumberedStatement} {written : String}
    (member : one ∈ statements source) (defines : DefinesLabel source one.line written) :
    one.statement.label = some { written } := by
  obtain ⟨other, otherMember, sameLine, isLabel⟩ := definesLabel_iff.1 defines
  obtain ⟨_, line, listed, found⟩ := mem_statements_iff.1 member
  obtain ⟨_, otherLine, otherListed, otherFound⟩ := mem_statements_iff.1 otherMember
  rw [sameLine, listed, Option.some.injEq] at otherListed
  rw [← otherListed, found, Option.some.injEq] at otherFound
  rw [otherFound, isLabel]

theorem definesLabel_of_label {source : List Char} {one : NumberedStatement} {label : Label}
    (member : one ∈ statements source) (isLabel : one.statement.label = some label) :
    DefinesLabel source one.line label.written :=
  definesLabel_iff.2 ⟨one, member, rfl, isLabel⟩

theorem isIdentifier_name_iff (label : Label) :
    isIdentifier label.name = true ↔ IsName borrowedLetters label.written.toList :=
  isIdentifier_upperCase_iff label.written

theorem breaksLabelRule_of_offends {source : List Char} {earlier : List NumberedStatement}
    {one : NumberedStatement} {cause : Cause} (reached : earlier ++ [one] <+: statements source)
    (offends : Offends borrowedLetters source one.line cause) : BreaksLabelRule earlier one := by
  have member := mem_of_reached reached
  cases offends with
  | invalid defines misnamed =>
      refine ⟨_, label_of_definesLabel member defines, Or.inl ?_⟩
      rw [← Bool.not_eq_true, isIdentifier_name_iff]
      exact misnamed
  | reserved defines _ reserved =>
      exact ⟨_, label_of_definesLabel member defines, Or.inr (Or.inl reserved)⟩
  | duplicate defines _ _ definesFirst before same =>
      refine ⟨_, label_of_definesLabel member defines, Or.inr (Or.inr ?_)⟩
      obtain ⟨first, firstMember, rfl, isLabel⟩ := definesLabel_iff.1 definesFirst
      exact List.mem_filterMap.2
        ⟨first, mem_earlier_of_line_lt reached firstMember before, by simp [isLabel, Label.name, same]⟩

/-- No line offends whose statement is among some that break no rule. -/
theorem not_offends_of_noneFails {source : List Char} {front : List NumberedStatement}
    (inFront : front <+: statements source) (none : NoneFails BreaksLabelRule front)
    {one : NumberedStatement} (member : one ∈ front) (cause : Cause) :
    ¬ Offends borrowedLetters source one.line cause := by
  intro offends
  obtain ⟨earlier, reached⟩ := exists_reached member
  exact none earlier one reached (breaksLabelRule_of_offends (reached.trans inFront) offends)

theorem exists_statement_of_offends {further source : List Char} {number : Nat} {cause : Cause}
    (offends : Offends further source number cause) :
    ∃ one ∈ statements source, one.line = number := by
  obtain ⟨written, defines⟩ : ∃ written, DefinesLabel source number written := by
    cases offends with
    | invalid defines => exact ⟨_, defines⟩
    | reserved defines => exact ⟨_, defines⟩
    | duplicate defines => exact ⟨_, defines⟩
  obtain ⟨one, member, sameLine, _⟩ := definesLabel_iff.1 defines
  exact ⟨one, member, sameLine⟩

/-! ## The first pass -/

/-- The declarations are those of the labels of statements, with their lines. -/
structure DeclaresLines (earlier : List NumberedStatement) (declared : Declarations) : Prop where
  names : Declares earlier declared
  defined : ∀ entry ∈ declared, ∃ first ∈ earlier, first.line = entry.2 ∧
    ∃ label, first.statement.label = some label ∧ label.name = entry.1

theorem declaresLines_nil : DeclaresLines [] [] where
  names := declares_nil
  defined := fun _ impossible => absurd impossible List.not_mem_nil

theorem continues_declare_lines {numbered : List NumberedStatement} :
    Continues numbered (declare .standard) DeclaresLines BreaksLabelRule := by
  intro earlier one declared next reached declares success
  obtain ⟨passes, names⟩ := continues_declare earlier one declared next reached declares.names success
  -- what is declared already keeps its line, whether or not this statement adds a label
  have kept : ∀ entry ∈ declared, ∃ first ∈ earlier ++ [one], first.line = entry.2 ∧
      ∃ label, first.statement.label = some label ∧ label.name = entry.1 := by
    intro entry member
    obtain ⟨first, isEarlier, defines⟩ := declares.defined entry member
    exact ⟨first, List.mem_append_left _ isEarlier, defines⟩
  refine ⟨passes, names, ?_⟩
  rcases declare_cases success with ⟨_, rfl⟩ | ⟨label, isLabel, _, _, _, rfl⟩
  · exact kept
  · rw [List.forall_mem_cons]
    exact ⟨⟨one, List.mem_append_right _ List.mem_cons_self, rfl, label, isLabel, rfl⟩, kept⟩

/-- A name that is declared is that of a label of an earlier line. -/
theorem definesLabel_of_lookup {source : List Char} {earlier : List NumberedStatement}
    {one : NumberedStatement} (reached : earlier ++ [one] <+: statements source)
    {declared : Declarations} (declares : DeclaresLines earlier declared) {name : String}
    {line : Nat} (found : declared.lookup name = some line) :
    line < one.line ∧ ∃ written, DefinesLabel source line written ∧ upperCase written = name := by
  obtain ⟨front, back, entries, _⟩ := List.lookup_eq_some_iff.1 found
  obtain ⟨first, isEarlier, rfl, label, isLabel, same⟩ :=
    declares.defined (name, line) (by simp [entries])
  have member : first ∈ statements source := reached.subset (List.mem_append_left _ isEarlier)
  exact ⟨line_lt_of_reached reached isEarlier, label.written, definesLabel_of_label member isLabel,
    same⟩

/-- The first pass stops with the error of the rule that the label breaks. -/
theorem stops_declare_lines {source : List Char} :
    Stops (statements source) (declare .standard) DeclaresLines BreaksLabelRule
      fun one failure => ∃ cause, Offends borrowedLetters source one.line cause ∧
        failure = .refused { line := one.line, cause } := by
  intro earlier one declared failure reached declares fails
  have member := mem_of_reached reached
  refine ⟨(stops_declare earlier one declared failure reached declares.names fails).1, ?_⟩
  cases isLabel : one.statement.label with
  | none =>
      rw [declare, isLabel] at fails
      cases fails
  | some label =>
      have defines := definesLabel_of_label member isLabel
      simp only [declare, isLabel] at fails
      -- the rules in the order in which the pass applies them
      split at fails
      · rename_i noIdentifier
        cases fails
        rw [Bool.not_eq_true', ← Bool.not_eq_true, isIdentifier_name_iff] at noIdentifier
        exact ⟨_, .invalid defines noIdentifier, rfl⟩
      · rename_i identifier
        rw [Bool.not_eq_true', Bool.not_eq_false, isIdentifier_name_iff] at identifier
        split at fails
        · rename_i reserved
          cases fails
          exact ⟨_, .reserved defines identifier ((isReserved_iff _).1 reserved), rfl⟩
        · rename_i unreserved
          rw [isReserved_iff] at unreserved
          split at fails
          · rename_i firstLine found
            cases fails
            obtain ⟨before, firstWritten, definesFirst, same⟩ :=
              definesLabel_of_lookup reached declares found
            exact ⟨_, .duplicate defines identifier unreserved definesFirst before same, rfl⟩
          · cases fails

/-- The first statement that breaks a rule stands on the first line that offends. -/
theorem isFirstOffence_of_isFirst {source : List Char} {earlier : List NumberedStatement}
    {one : NumberedStatement} {cause : Cause}
    (first : IsFirst BreaksLabelRule (statements source) earlier one)
    (offends : Offends borrowedLetters source one.line cause) :
    IsFirstOffence borrowedLetters source one.line cause := by
  refine ⟨offends, ?_⟩
  intro number other before otherOffends
  obtain ⟨statement, member, rfl⟩ := exists_statement_of_offends otherOffends
  have inFront := (List.prefix_append earlier [one]).trans first.reached
  have isEarlier := mem_earlier_of_line_lt first.reached member before
  exact not_offends_of_noneFails inFront first.before isEarlier other otherOffends

/-- Either all labels follow the rules and are declared, or the first pass stops at the first line
that offends. -/
theorem declarations_cases (source : List Char) :
    (HasProperLabels borrowedLetters source ∧
      ∃ declared, declarations .standard (statements source) = .ok declared) ∨
    ∃ number cause, IsFirstOffence borrowedLetters source number cause ∧
      declarations .standard (statements source) = .error (.refused { line := number, cause }) := by
  cases declares : declarations .standard (statements source) with
  | ok declared =>
      left
      refine ⟨hasProperLabels_iff.2 ?_, declared, rfl⟩
      intro number cause offends
      obtain ⟨one, member, rfl⟩ := exists_statement_of_offends offends
      exact not_offends_of_noneFails List.prefix_rfl (noneFails_of_declarations declares).1 member
        cause offends
  | error failure =>
      right
      obtain ⟨earlier, one, first, cause, offends, rfl⟩ :=
        first_of_foldlM continues_declare_lines declaresLines_nil stops_declare_lines declares
      exact ⟨one.line, cause, isFirstOffence_of_isFirst first offends, rfl⟩

/-! ## Assembling -/

/-- The labels of a source text are checked by the rules, where the further letters count as
letters: the text gets past the first pass exactly when it follows them, and then it is not refused
for a label, and otherwise it is refused for the first line that offends. -/
structure ChecksLabels (further source : List Char) (result : Except Failure Program) : Prop where
  passes : (∃ declared, declarations .standard (statements source) = .ok declared) ↔
    HasProperLabels further source
  spares : SparesLabels result ↔ HasProperLabels further source
  refuses : ¬ HasProperLabels further source →
    ∃ number cause, IsFirstOffence further source number cause ∧
      result = .error (.refused { line := number, cause })

theorem isAboutLabel_of_offends {further source : List Char} {number : Nat} {cause : Cause}
    (offends : Offends further source number cause) : cause.kind.isAboutLabel = true := by
  cases offends <;> rfl

theorem checksLabels_borrowedLetters (order : ByteOrder) (source : List Char) :
    ChecksLabels borrowedLetters source (assemble .standard order source) := by
  rcases declarations_cases source with
    ⟨proper, declared, declares⟩ | ⟨number, cause, first, refused⟩
  · constructor
    case passes => exact ⟨fun _ => proper, fun _ => ⟨declared, declares⟩⟩
    case spares =>
      refine ⟨fun _ => proper, fun _ => ?_⟩
      rw [assemble, programOf, declares]
      exact (sparesLabels_layoutOf .standard order declared _).bind (sparesLabels_link order)
    case refuses => exact fun improper => absurd proper improper
  · have improper : ¬ HasProperLabels borrowedLetters source := fun proper =>
      hasProperLabels_iff.1 proper number cause first.offends
    have stopped : assemble .standard order source = .error (.refused { line := number, cause }) := by
      rw [assemble, programOf, refused]
      rfl
    constructor
    case passes =>
      rw [refused]
      simp [improper]
    case spares =>
      refine iff_of_false ?_ improper
      intro spares
      have spared := spares _ stopped
      rw [isAboutLabel_of_offends first.offends] at spared
      cases spared
    case refuses => exact fun _ => ⟨number, cause, first, stopped⟩

/-! ## Further letters -/

theorem offends_of_same_names {letters others source : List Char}
    (same : ∀ number written, DefinesLabel source number written →
      (IsName letters written.toList ↔ IsName others written.toList)) {number : Nat} {cause : Cause}
    (offends : Offends letters source number cause) : Offends others source number cause := by
  cases offends with
  | invalid defines misnamed => exact .invalid defines (mt (same _ _ defines).2 misnamed)
  | reserved defines named reserved => exact .reserved defines ((same _ _ defines).1 named) reserved
  | duplicate defines named unreserved definesFirst earlier again =>
      exact .duplicate defines ((same _ _ defines).1 named) unreserved definesFirst earlier again

/-- Further letters that no label uses make no difference. -/
theorem ChecksLabels.without {further source : List Char} {result : Except Failure Program}
    (checks : ChecksLabels further source result)
    (unused : ∀ number written, DefinesLabel source number written →
      ∀ character ∈ written.toList, character ∉ further) : ChecksLabels [] source result := by
  have same : ∀ number written, DefinesLabel source number written →
      (IsName [] written.toList ↔ IsName further written.toList) := fun number written defines =>
    isName_nil_iff (unused number written defines)
  have offends : ∀ number cause, Offends [] source number cause ↔
      Offends further source number cause := fun number cause =>
    ⟨offends_of_same_names same, offends_of_same_names fun number written defines =>
      (same number written defines).symm⟩
  have proper : HasProperLabels [] source ↔ HasProperLabels further source := by
    simp only [hasProperLabels_iff, offends]
  constructor
  case passes => exact checks.passes.trans proper.symm
  case spares => exact checks.spares.trans proper.symm
  case refuses =>
    intro improper
    obtain ⟨number, cause, ⟨isOffence, first⟩, refused⟩ := checks.refuses (mt proper.2 improper)
    refine ⟨number, cause, ⟨(offends number cause).2 isOffence, ?_⟩, refused⟩
    intro earlier other before
    rw [offends]
    exact first earlier other before

/-- For every configuration and source text, labels are checked by the rules with the ten letters
beyond ASCII, and with letters of ASCII alone if no label uses one of the ten. -/
theorem assemble_checksLabels (config : Config) (source : List Char) :
    ChecksLabels borrowedLetters source (assemble .standard config.operandOrder source) ∧
      ((∀ number written, DefinesLabel source number written →
          ∀ character ∈ written.toList, character ∉ borrowedLetters) →
        ChecksLabels [] source (assemble .standard config.operandOrder source)) := by
  have checks := checksLabels_borrowedLetters config.operandOrder source
  exact ⟨checks, checks.without⟩

/-- A label that is repeated in small letters, with none of the ten letters in the text. -/
theorem assemble_checksLabels_of_repeated_label :
    (∀ number written, DefinesLabel "X: NOP\nx: HLT".toList number written →
      ∀ character ∈ written.toList, character ∉ borrowedLetters) ∧
    ChecksLabels [] "X: NOP\nx: HLT".toList
      (assemble .standard Config.standard.operandOrder "X: NOP\nx: HLT".toList) ∧
    assemble .standard Config.standard.operandOrder "X: NOP\nx: HLT".toList =
      .error (.refused { line := 2, cause := .duplicateLabel "x" 1 }) := by
  have every : ∀ one ∈ statements "X: NOP\nx: HLT".toList, ∀ label ∈ one.statement.label,
      (label.written.toList.all fun character => !borrowedLetters.contains character) = true := by
    decide
  have unused : ∀ number written, DefinesLabel "X: NOP\nx: HLT".toList number written →
      ∀ character ∈ written.toList, character ∉ borrowedLetters := by
    intro number written defines
    obtain ⟨one, member, _, isLabel⟩ := definesLabel_iff.1 defines
    simpa using every one member _ isLabel
  exact ⟨unused, (assemble_checksLabels .standard _).2 unused, by rfl⟩

/-- With letters of ASCII alone the rules are not those of the assembler: a sharp s is no such letter,
and yet it is a label. -/
theorem sharp_s_is_a_label :
    (∃ program, assemble .standard Config.standard.operandOrder "ß: NOP".toList = .ok program ∧
      program.labels = [("SS", 0)]) ∧
    DefinesLabel "ß: NOP".toList 1 "ß" ∧ ¬ IsName [] "ß".toList ∧
    ¬ ∀ (config : Config) (source : List Char),
      ChecksLabels [] source (assemble .standard config.operandOrder source) := by
  have assembles : ∃ program,
      assemble .standard Config.standard.operandOrder "ß: NOP".toList = .ok program ∧
        program.labels = [("SS", 0)] := ⟨_, rfl, rfl⟩
  have defines : DefinesLabel "ß: NOP".toList 1 "ß" :=
    definesLabel_iff.2 ⟨⟨1, _⟩, List.mem_singleton.2 rfl, rfl, rfl⟩
  have misnamed : ¬ IsName [] "ß".toList := by
    rintro ⟨first, rest, same, startsName, _⟩
    cases same
    rw [isNameStart_iff_of_beyond (by decide)] at startsName
    exact List.not_mem_nil startsName
  refine ⟨assembles, defines, misnamed, ?_⟩
  intro always
  obtain ⟨program, assembled, _⟩ := assembles
  have checks := always .standard "ß: NOP".toList
  have improper : ¬ HasProperLabels [] "ß: NOP".toList := fun proper =>
    misnamed (proper.named 1 "ß" defines)
  obtain ⟨number, cause, _, refused⟩ := checks.refuses improper
  rw [assembled] at refused
  cases refused

end Intel8085.Assembly
