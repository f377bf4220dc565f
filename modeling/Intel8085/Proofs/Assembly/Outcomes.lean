import Intel8085.Assembly.Outcome
import Intel8085.Proofs.Assembly.FirstError
import Intel8085.Proofs.Source.Spelling

/-!
# Outcomes of source texts

A source text has an outcome, which is a program or an error on one of its lines, unless an operand
is overlong (`outcomeOf_cases`).  A text whose first operand is overlong may have none
(`outcomeOf_of_overlong`), even where the operand stands for a number that fits.
-/

set_option autoImplicit false

namespace Intel8085.Assembly

open Intel8085.Text Intel8085.Source

/-! ## Failures of a source text -/

theorem line_of_mem_statements {source : List Char} {one : NumberedStatement}
    (member : one ∈ statements source) : 1 ≤ one.line ∧ one.line ≤ (lines source).length := by
  obtain ⟨⟨line, index⟩, isLine, found⟩ := List.mem_filterMap.1 member
  obtain ⟨statement, _, rfl⟩ := Option.map_eq_some_iff.1 found
  have bound : index < (lines source).length := by
    simpa using List.snd_lt_of_mem_zipIdx isLine
  exact ⟨Nat.le_add_left 1 index, bound⟩

/-- When there is no program of statements, one of them is at fault. -/
theorem exists_isAt_of_programOf {order : ByteOrder} {numbered : List NumberedStatement}
    {failure : Failure} (fails : programOf .standard order numbered = .error failure) :
    ∃ one ∈ numbered, failure.IsAt one.line (operandsIn one) := by
  rw [programOf] at fails
  rcases bind_eq_error_iff.1 fails with undeclared | ⟨declared, declares, fails⟩
  · obtain ⟨_, one, first, cause, rfl⟩ := first_of_declarations undeclared
    exact ⟨one, mem_of_reached first.reached, .refused cause⟩
  · rcases bind_eq_error_iff.1 fails with unlaid | ⟨layout, laid, unlinked⟩
    · obtain ⟨one, member, _, fails⟩ := exists_of_foldlM_eq_error unlaid
      exact ⟨one, member, isAt_of_lay fails⟩
    · obtain ⟨uses, used, ⟨_, program, linked⟩ | ⟨_, use, first, cause, refused⟩⟩ :=
        link_cases declares laid
      · rw [unlinked] at linked
        cases linked
      · rw [unlinked] at refused
        cases refused
        -- the error is at the line of a use, which is that of the statement that uses the label
        obtain ⟨⟨one, member, sameLine⟩, _⟩ :=
          line_and_name_of_uses used (mem_of_reached first.reached)
        rw [sameLine]
        exact ⟨one, member, .refused cause⟩

/-! ## Outcomes -/

/-- The outcome of a text of so many lines is a program, or an error on one of the lines and nothing
else. -/
inductive Outcome.IsProper (lineCount : Nat) (outcome : Outcome) : Prop where
  | assembled (ok : outcome.ok = true) (hasProgram : ∃ program, outcome.program = some program)
      (noError : outcome.error = none) : Outcome.IsProper lineCount outcome
  | refused (notOk : outcome.ok = false) (noProgram : outcome.program = none)
      (noCode : outcome.code = []) (noListing : outcome.listing = [])
      (hasError : ∃ error, outcome.error = some error ∧ 1 ≤ error.line ∧ error.line ≤ lineCount) :
      Outcome.IsProper lineCount outcome

/-- Whatever the order of bytes and the source text, there is a proper outcome, or no outcome because
of an overlong operand. -/
theorem outcomeOf_cases (order : ByteOrder) (source : List Char) :
    (∃ outcome, outcomeOf .standard order source = .ok outcome ∧
      outcome.IsProper (lines source).length) ∨
    (outcomeOf .standard order source = .error .numberTooLong ∧
      ∃ one ∈ statements source, ∃ operand ∈ operandsIn one, IsOverlong operand) := by
  rw [outcomeOf]
  cases assembled : assemble .standard order source with
  | ok program => exact Or.inl ⟨_, rfl, .assembled rfl ⟨program, rfl⟩ rfl⟩
  | error failure =>
      obtain ⟨one, member, isAt⟩ := exists_isAt_of_programOf assembled
      cases isAt with
      | refused cause =>
          have error := line_of_mem_statements member
          exact Or.inl ⟨_, rfl, .refused rfl rfl rfl rfl ⟨_, rfl, error⟩⟩
      | tooLong isOperand overlong => exact Or.inr ⟨rfl, one, member, _, isOperand, overlong⟩

/-! ## Overlong operands -/

theorem isPlain_of_hexDigitValue? {character : Char} {value : Nat}
    (isDigit : hexDigitValue? character = some value) : isPlain character = true := by
  simp only [hexDigitValue?, Bool.and_eq_true, decide_eq_true_eq] at isDigit
  simp only [isPlain, Bool.or_eq_true, Bool.and_eq_true, decide_eq_true_eq, Char.le_def,
    UInt32.le_iff_toNat_le]
  split at isDigit
  · rename_i decimal
    exact Or.inr decimal
  · split at isDigit
    · rename_i letter
      exact Or.inl ⟨letter.1, letter.2.trans (by decide)⟩
    · cases isDigit

theorem isPlainToken_of_isNumeral {radix : Radix} {operand : String} {value : Nat}
    (isNumeral : IsNumeral radix operand.toList value) : isPlainToken operand = true := by
  rw [isPlainToken]
  generalize operand.toList = text at isNumeral
  cases isNumeral with
  | @intro body digits leading spelled =>
      have some : body ≠ [] := by
        rintro rfl
        cases leading
      have bodyPlain : ∀ character ∈ body, isPlain character = true := by
        intro character member
        obtain ⟨digit, _, isDigit⟩ := exists_of_mem_right spelled.flip member
        exact isPlain_of_hexDigitValue? (Option.filter_eq_some_iff.1 isDigit).1
      have suffixPlain : ∀ character ∈ radix.suffix, isPlain character = true := by
        rw [← List.all_eq_true]
        cases radix <;> rfl
      simp only [Bool.and_eq_true, List.all_eq_true, List.mem_append]
      refine ⟨by simpa using fun empty => absurd empty some, ?_⟩
      rintro character (inBody | inSuffix)
      · exact bodyPlain character inBody
      · exact suffixPlain character inSuffix

theorem dataValue_of_overlong {line : Nat} {operand : String} (overlong : IsOverlong operand) :
    dataValue [] line operand = .error .numberTooLong := by
  obtain ⟨radix, value, isNumeral, reason⟩ := overlong
  -- a numeral that is read is overlong only if its number cannot be written into the error
  by_cases short : radix = .decimal → operand.toList.length ≤ longestDecimal
  · have large : 10 ^ longestDecimal ≤ value := by
      rcases reason with ⟨decimal, long⟩ | large
      · exact absurd (short decimal) (Nat.not_le_of_lt long)
      · exact large
    have wide : ¬ value < 256 := by
      have least : 256 ≤ 10 ^ longestDecimal :=
        calc 256 ≤ 10 ^ 3 := by decide
          _ ≤ 10 ^ longestDecimal := Nat.pow_le_pow_right (by decide) (by decide)
      omega
    rw [dataValue, valueOf, readLiteral_of_isNumeral isNumeral short]
    change (if value < 256 then _ else refuseNumber line value (.byteTooWide value)) = _
    rw [if_neg wide, refuseNumber, if_neg (Nat.not_lt_of_le large)]
  · obtain ⟨rfl, long⟩ := Classical.not_imp.1 short
    rw [dataValue, valueOf, readLiteral_of_long isNumeral (Nat.lt_of_not_le long)]
    rfl

theorem statements_of_data {operand : String} (plain : isPlainToken operand = true) :
    statements ("DB " ++ operand).toList =
      [{ line := 1
         statement :=
          { label := none
            instruction := some { mnemonic := dataDirective, operands := [operand] } } }] := by
  have plainData : ∀ instruction ∈ [{ mnemonic := dataDirective, operands := [operand] }],
      IsPlainInstruction instruction := by
    intro instruction member
    cases List.mem_singleton.1 member
    have plainName : isPlainToken dataDirective = true := by decide
    refine ⟨plainName, ?_⟩
    intro other isOther
    cases List.mem_singleton.1 isOther
    exact plain
  have read := statements_intercalate plainData
  have written : "\n".intercalate ([{ mnemonic := dataDirective, operands := [operand] }].map
      instructionText) = "DB " ++ operand := rfl
  rw [written] at read
  exact read

theorem dataBlock_of_overlong {line before : Nat} {label operand : String}
    (overlong : IsOverlong operand) (fits : before < longestProgram) :
    dataBlock [] line before label { mnemonic := dataDirective, operands := [operand] } =
      .error .numberTooLong := by
  have proper : checkOperands line [operand] = .ok () := by
    obtain ⟨radix, value, isNumeral, _⟩ := overlong
    rw [checkOperands_eq_ok_iff, List.any_cons, List.any_nil, Bool.or_false]
    exact isMalformed_of_isPlainToken (isPlainToken_of_isNumeral isNumeral)
  have room : ¬ longestProgram < before + [operand].length := Nat.not_lt_of_le fits
  have unread : [operand].mapM (dataValue [] line) = .error .numberTooLong := by
    rw [List.mapM_cons, dataValue_of_overlong overlong]
    rfl
  unfold dataBlock
  rw [if_neg (by simp), proper]
  change (if longestProgram < before + [operand].length then _ else
    [operand].mapM (dataValue [] line) >>= _) = _
  rw [if_neg room, unread]
  rfl

theorem lay_of_overlong {order : ByteOrder} {line : Nat} {operand : String} {layout : Layout}
    (overlong : IsOverlong operand) (fits : layout.size < longestProgram) :
    lay .standard order [] layout
      { line
        statement :=
          { label := none
            instruction := some { mnemonic := dataDirective, operands := [operand] } } } =
      .error .numberTooLong := by
  rw [lay_of_instruction rfl, blockOf, if_pos (beq_self_eq_true dataDirective),
    dataBlock_of_overlong overlong fits]
  rfl

/-- Data with an overlong operand has no outcome, even if the operand stands for a small number. -/
theorem outcomeOf_of_overlong (order : ByteOrder) {operand : String}
    (overlong : IsOverlong operand) :
    outcomeOf .standard order ("DB " ++ operand).toList = .error .numberTooLong := by
  have plain : isPlainToken operand = true := by
    obtain ⟨radix, value, isNumeral, _⟩ := overlong
    exact isPlainToken_of_isNumeral isNumeral
  have fails : assemble .standard order ("DB " ++ operand).toList = .error .numberTooLong := by
    rw [assemble, statements_of_data plain, programOf]
    change layoutOf .standard order [] _ >>= link order = _
    rw [layoutOf, List.foldlM_cons, lay_of_overlong overlong (by decide)]
    rfl
  rw [outcomeOf, fails]

theorem no_outcome_of_padded_one :
    IsNumeral .decimal (String.ofList (List.replicate 4300 '0' ++ ['1'])).toList 1 ∧
      ¬ ∃ outcome, outcomeOf .standard .big
        ("DB " ++ String.ofList (List.replicate 4300 '0' ++ ['1'])).toList = .ok outcome := by
  have spelled : List.Forall₂ (fun character digit => Radix.decimal.digit? character = some digit)
      ['1'] [1] := .cons rfl .nil
  have isOne : IsNumeral .decimal ['1'] 1 := IsNumeral.intro rfl spelled
  have isNumeral : IsNumeral .decimal
      (String.ofList (List.replicate 4300 '0' ++ ['1'])).toList 1 := by
    rw [String.toList_ofList]
    exact isOne.padded 4300
  have overlong : IsOverlong (String.ofList (List.replicate 4300 '0' ++ ['1'])) := by
    refine ⟨.decimal, 1, isNumeral, Or.inl ⟨rfl, ?_⟩⟩
    rw [String.toList_ofList, List.length_append, List.length_replicate, longestDecimal]
    decide
  refine ⟨isNumeral, ?_⟩
  rintro ⟨outcome, impossible⟩
  rw [outcomeOf_of_overlong .big overlong] at impossible
  cases impossible

end Intel8085.Assembly
