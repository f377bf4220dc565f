import Intel8085.Proofs.Assembly.Blocks
import Intel8085.Proofs.Source.Numerals

/-!
# Failures of statements

With the standard table a statement fails in one of two ways (`isAt_of_blockOf`): it is refused at
its own line, or one of its operands is a numeral that is too long to be read, or stands for a number
too long to be written (`IsOverlong`).  No operand of a few thousand characters is that long
(`not_isOverlong_of_length`).
-/

set_option autoImplicit false

namespace Intel8085.Assembly

open Intel8085.Text Intel8085.Source

/-- The operand is a decimal numeral of too many digits, or the numeral of a number that has too
many decimal digits. -/
def IsOverlong (operand : String) : Prop :=
  ∃ radix value, IsNumeral radix operand.toList value ∧
    (radix = .decimal ∧ longestDecimal < operand.toList.length ∨ 10 ^ longestDecimal ≤ value)

/-- The operands of a statement; one without an instruction has none. -/
def operandsIn (one : NumberedStatement) : List String :=
  match one.statement.instruction with
  | none => []
  | some instruction => instruction.operands

/-- The failure is an error at a line, or that of an overlong operand. -/
inductive Failure.IsAt (line : Nat) (operands : List String) : Failure → Prop where
  | refused (cause : Cause) : Failure.IsAt line operands (.refused { line, cause })
  | tooLong {operand : String} (member : operand ∈ operands) (overlong : IsOverlong operand) :
      Failure.IsAt line operands .numberTooLong

/-! ## Numerals of moderate length -/

theorem digit_lt_size {radix : Radix} {character : Char} {digit : Nat}
    (isDigit : radix.digit? character = some digit) : digit < radix.size := by
  rw [Radix.digit?, Option.filter_eq_some_iff] at isDigit
  simpa using isDigit.2

theorem lt_pow_of_isNumeral {radix : Radix} {text : List Char} {value : Nat}
    (isNumeral : IsNumeral radix text value) : value < 16 ^ text.length := by
  cases isNumeral with
  | @intro body digits leading spelled =>
      have small : ∀ digit ∈ digits.reverse, digit < radix.size := by
        intro digit member
        obtain ⟨character, _, isDigit⟩ := exists_of_mem_right spelled (List.mem_reverse.1 member)
        exact digit_lt_size isDigit
      have bases : 1 < radix.size ∧ radix.size ≤ 16 := by
        cases radix <;> decide
      have bound := Nat.ofDigits_lt_base_pow_length bases.1 small
      have shorter : digits.reverse.length ≤ (body ++ radix.suffix).length := by
        rw [List.length_reverse, List.length_append, spelled.length_eq]
        exact Nat.le_add_right _ _
      calc Nat.ofDigits radix.size digits.reverse < radix.size ^ digits.reverse.length := bound
        _ ≤ 16 ^ digits.reverse.length := Nat.pow_le_pow_left bases.2 _
        _ ≤ 16 ^ (body ++ radix.suffix).length := Nat.pow_le_pow_right (by decide) shorter

/-- So many characters are never too long for a numeral. -/
def moderateLength : Nat := 3000

theorem pow_moderateLength_le : 16 ^ moderateLength ≤ 10 ^ longestDecimal := by
  have parts : moderateLength = 30 * 100 ∧ longestDecimal = 43 * 100 := by decide
  rw [parts.1, parts.2, Nat.pow_mul, Nat.pow_mul]
  exact Nat.pow_le_pow_left (by decide) 100

theorem not_isOverlong_of_length {operand : String}
    (moderate : operand.toList.length ≤ moderateLength) : ¬ IsOverlong operand := by
  rintro ⟨radix, value, isNumeral, ⟨_, long⟩ | large⟩
  · have shorter : moderateLength ≤ longestDecimal := by decide
    omega
  · have bound := lt_pow_of_isNumeral isNumeral
    have widest := Nat.pow_le_pow_right (by decide : 0 < 16) moderate
    have most := pow_moderateLength_le
    omega

/-! ## Capitals of moderate length -/

theorem length_le_of_lookup_capitalGroups {code : Nat} {group : List Nat}
    (found : capitalGroups.lookup code = some group) : group.length ≤ 3 := by
  have every : ∀ entry ∈ capitalGroups, entry.2.length ≤ 3 := by decide
  obtain ⟨front, back, entries, _⟩ := List.lookup_eq_some_iff.1 found
  have member : (code, group) ∈ capitalGroups := by
    rw [entries]
    exact List.mem_append_right front List.mem_cons_self
  exact every _ member

theorem length_capital_le (character : Char) : (capital character).length ≤ 3 := by
  rw [capital]
  split
  · simp
  · rw [capitalBeyondAscii]
    split
    · simp
    · split
      · rename_i group found
        rw [List.length_map]
        exact length_le_of_lookup_capitalGroups found
      · simp

theorem length_capitals_le (text : List Char) : (capitals text).length ≤ 3 * text.length := by
  induction text with
  | nil => exact Nat.le_refl 0
  | cons character rest inductionHypothesis =>
      have first := length_capital_le character
      rw [capitals, List.flatMap_cons, List.length_append, List.length_cons]
      rw [capitals] at inductionHypothesis
      omega

/-- An operand that is written in fewer than a thousand characters is of moderate length. -/
theorem length_capitalText_le {text : List Char} (short : text.length < 1000) :
    (capitalText text).length ≤ moderateLength := by
  have widest := length_capitals_le text
  rw [capitalText, String.length_ofList, moderateLength]
  omega

/-! ## Operands -/

section Operands

variable {declared : Declarations} {line : Nat} {operand : String} {operands : List String}
  {failure : Failure}

theorem isAt_of_refuse {Result : Type} {cause : Cause}
    (fails : (refuse line cause : Except Failure Result) = .error failure) :
    failure.IsAt line operands := by
  cases fails
  exact .refused cause

/-- A number that cannot be named is that of an overlong operand. -/
theorem isAt_of_refuseNumber {Result : Type} {value : Nat} {cause : Cause}
    (member : operand ∈ operands) (isNumeral : ∃ radix, IsNumeral radix operand.toList value)
    (fails : (refuseNumber line value cause : Except Failure Result) = .error failure) :
    failure.IsAt line operands := by
  rw [refuseNumber] at fails
  split at fails
  · exact isAt_of_refuse fails
  · rename_i large
    cases fails
    obtain ⟨radix, spelled⟩ := isNumeral
    exact .tooLong member ⟨radix, value, spelled, Or.inr (Nat.le_of_not_lt large)⟩

theorem isAt_of_valueOf (member : operand ∈ operands)
    (fails : valueOf declared line operand = .error failure) : failure.IsAt line operands := by
  rw [valueOf] at fails
  split at fails
  · cases fails
  · split at fails
    · cases fails
    · rename_i tooLong
      cases fails
      obtain ⟨value, isNumeral, long⟩ := isNumeral_of_tooLong tooLong
      exact .tooLong member ⟨.decimal, value, isNumeral, Or.inl ⟨rfl, long⟩⟩
    · split at fails
      · exact isAt_of_refuse fails
      · exact isAt_of_refuse fails

theorem isNumeral_of_valueOf {number : Nat}
    (read : valueOf declared line operand = .ok (.number number)) :
    ∃ radix, IsNumeral radix operand.toList number := by
  rw [valueOf] at read
  split at read
  · cases read
  · split at read
    · rename_i value isNumber
      cases read
      obtain ⟨radix, isNumeral, _⟩ := isNumeral_of_readLiteral isNumber
      exact ⟨radix, isNumeral⟩
    · cases read
    · split at read
      · cases read
      · cases read

theorem isAt_of_checkOperands (fails : checkOperands line operands = .error failure) :
    failure.IsAt line operands := by
  rw [checkOperands] at fails
  split at fails
  · exact isAt_of_refuse fails
  · cases fails

end Operands

/-! ## Instructions and data -/

section Statements

variable {order : ByteOrder} {declared : Declarations} {line before : Nat} {label : String}
  {instruction : Instruction} {failure : Failure}

theorem isAt_of_formFor {table : OpcodeTable}
    (fails : formFor table declared line instruction = .error failure) :
    failure.IsAt line instruction.operands := by
  unfold formFor at fails
  simp only [foldlM_classify] at fails
  split at fails
  · exact isAt_of_refuse fails
  · rcases bind_eq_error_iff.1 fails with unchecked | ⟨_, _, fails⟩
    · exact isAt_of_checkOperands unchecked
    · rcases bind_eq_error_iff.1 fails with unread | ⟨classified, _, fails⟩
      · obtain ⟨operand, member, fails⟩ := exists_of_mapM_eq_error (map_eq_error_iff.1 unread)
        exact isAt_of_valueOf (List.mem_filter.1 member).1 fails
      · split at fails
        · exact isAt_of_refuse fails
        · split at fails
          · exact isAt_of_refuse fails
          · cases fails

/-- The immediate of a form of the standard table is wide enough, or refused at the line. -/
theorem isAt_of_immediateOf {opcode : UInt8} {form : Form} {value : Option Value}
    (found : formFor .standard declared line instruction = .ok (opcode, form, value))
    (fails : immediateOf order line form.width value = .error failure) :
    failure.IsAt line instruction.operands := by
  rcases immediate_of_formFor found with
    ⟨noBytes, rfl, _⟩ | ⟨proper, operand, number, only, read, rfl⟩
  · rw [immediateOf, if_pos noBytes] at fails
    cases fails
  · cases number with
    | address name => cases fails
    | number number =>
        have member : operand ∈ instruction.operands := by
          have isImmediate : operand ∈ immediateOperands
              (OpcodeTable.standard.literalOperands instruction.mnemonic)
              instruction.operands := by
            rw [only]
            exact List.mem_cons_self
          exact (List.mem_filter.1 isImmediate).1
        rw [immediateOf] at fails
        split at fails
        · cases fails
        · split at fails
          · cases fails
          · exact isAt_of_refuseNumber member (isNumeral_of_valueOf read) fails

theorem isAt_of_instructionBlock
    (fails : instructionBlock .standard order declared line before label instruction =
      .error failure) : failure.IsAt line instruction.operands := by
  unfold instructionBlock at fails
  rcases bind_eq_error_iff.1 fails with formless | ⟨⟨opcode, form, value⟩, found, fails⟩
  · exact isAt_of_formFor formless
  · simp only at fails
    split at fails
    · exact isAt_of_refuse fails
    · rcases bind_eq_error_iff.1 fails with unfilled | ⟨_, _, impossible⟩
      · exact isAt_of_immediateOf found unfilled
      · cases impossible

theorem isAt_of_dataValue {operand : String} (member : operand ∈ instruction.operands)
    (fails : dataValue declared line operand = .error failure) :
    failure.IsAt line instruction.operands := by
  rw [dataValue] at fails
  rcases bind_eq_error_iff.1 fails with unread | ⟨value, read, fails⟩
  · exact isAt_of_valueOf member unread
  · cases value with
    | address name => cases fails
    | number number =>
        simp only at fails
        split at fails
        · cases fails
        · exact isAt_of_refuseNumber member (isNumeral_of_valueOf read) fails

theorem isAt_of_dataBlock
    (fails : dataBlock declared line before label instruction = .error failure) :
    failure.IsAt line instruction.operands := by
  unfold dataBlock at fails
  simp only at fails
  split at fails
  · exact isAt_of_refuse fails
  · rcases bind_eq_error_iff.1 fails with unchecked | ⟨_, _, fails⟩
    · exact isAt_of_checkOperands unchecked
    · split at fails
      · exact isAt_of_refuse fails
      · rcases bind_eq_error_iff.1 fails with unread | ⟨_, _, impossible⟩
        · obtain ⟨operand, member, fails⟩ := exists_of_mapM_eq_error unread
          exact isAt_of_dataValue member fails
        · cases impossible

theorem isAt_of_blockOf
    (fails : blockOf .standard order declared line before label instruction = .error failure) :
    failure.IsAt line instruction.operands := by
  rw [blockOf] at fails
  split at fails
  · exact isAt_of_dataBlock fails
  · exact isAt_of_instructionBlock fails

end Statements

end Intel8085.Assembly
