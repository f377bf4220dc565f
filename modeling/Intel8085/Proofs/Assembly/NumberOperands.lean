import Intel8085.Proofs.Assembly.NextStatement
import Intel8085.Proofs.Disassembly.Reassembly
import Intel8085.Proofs.Source.NumeralGrammar
import Intel8085.Proofs.Source.OperandLines
import Intel8085.Proofs.Text.Marks

/-!
# Numbers as operands

An operand in the place of a number is read by the grammar of numbers, and one that is no number is
rejected as a label that is not defined, if it is a name, and else as an invalid number.  So it is
with the values of data and with immediates, behind any source text that assembles
(`assemble_readsNumbers`).
-/

set_option autoImplicit false

namespace Intel8085.Assembly

open Intel8085.Text Intel8085.Source Intel8085.Disassembly

/-! ## Names -/

/-- A capital letter or an underscore, and behind it capital letters, digits and underscores. -/
def IsCapitalName (text : List Char) : Prop :=
  ∃ first rest, text = first :: rest ∧ (first.isUpper = true ∨ first = '_') ∧
    ∀ character ∈ rest, character.isUpper = true ∨ character = '_' ∨ character.isDigit = true

theorem isIdentifierStart_iff (character : Char) :
    isIdentifierStart character = true ↔ character.isUpper = true ∨ character = '_' := by
  have upper : character.isUpper = (decide ('A' ≤ character) && decide (character ≤ 'Z')) :=
    Bool.decide_and _ _
  rw [isIdentifierStart, ← upper, Bool.or_eq_true, beq_iff_eq]

theorem isIdentifierPart_iff (character : Char) :
    isIdentifierPart character = true ↔
      character.isUpper = true ∨ character = '_' ∨ character.isDigit = true := by
  rw [isIdentifierPart, Bool.or_eq_true, isIdentifierStart_iff, or_assoc]
  rfl

theorem isIdentifier_iff_isCapitalName (text : String) :
    isIdentifier text = true ↔ IsCapitalName text.toList := by
  rw [isIdentifier, IsCapitalName]
  cases text.toList with
  | nil => simp
  | cons first rest =>
      simp only [Bool.and_eq_true, List.all_eq_true, isIdentifierStart_iff, isIdentifierPart_iff]
      constructor
      · rintro ⟨start, parts⟩
        exact ⟨first, rest, rfl, start, parts⟩
      · rintro ⟨_, _, same, start, parts⟩
        cases same
        exact ⟨start, parts⟩

/-! ## Values of operands -/

/-- The cause for which an operand is rejected that is neither a label nor a number. -/
inductive IsRejection (operand : String) : Cause → Prop where
  | undefinedLabel (named : IsCapitalName operand.toList) (free : operand ∉ registerWords) :
      IsRejection operand (.undefinedLabel operand)
  | invalidNumber (other : ¬ (IsCapitalName operand.toList ∧ operand ∉ registerWords)) :
      IsRejection operand (.invalidNumber operand)

/-- An operand on a line has the number that it spells for its value, or else it is rejected, and so
is data. -/
structure ReadsOperand (declared : Declarations) (line : Nat) (operand : String) : Prop where
  number : ∀ value, valueOf declared line operand = .ok (.number value) ↔
    ∃ radix, Spells radix operand.toList value
  rejected : (∀ radix value, ¬ Spells radix operand.toList value) →
    ∃ cause, IsRejection operand cause ∧
      valueOf declared line operand = .error (.refused { line, cause }) ∧
      dataValue declared line operand = .error (.refused { line, cause })

theorem valueOf_of_no_label {declared : Declarations} {operand : String}
    (noLabel : declared.lookup operand = none) (line : Nat) :
    valueOf declared line operand =
      match readLiteral operand.toList with
      | .number value => .ok (.number value)
      | .tooLong => .error .numberTooLong
      | .malformed =>
          if isIdentifier operand && !isRegisterWord operand then
            refuse line (.undefinedLabel operand)
          else refuse line (.invalidNumber operand) := by
  rw [valueOf, noLabel]
  rfl

theorem rejected_of_not_spells {declared : Declarations} {operand : String}
    (noLabel : declared.lookup operand = none)
    (misspelled : ∀ radix value, ¬ Spells radix operand.toList value) (line : Nat) :
    ∃ cause, IsRejection operand cause ∧
      valueOf declared line operand = .error (.refused { line, cause }) ∧
      dataValue declared line operand = .error (.refused { line, cause }) := by
  have unread := valueOf_of_no_label noLabel line
  rw [readLiteral_of_not_spells misspelled] at unread
  have isRegister : isRegisterWord operand = true ↔ operand ∈ registerWords :=
    List.contains_iff_mem
  have tested : (isIdentifier operand && !isRegisterWord operand) = true ↔
      IsCapitalName operand.toList ∧ operand ∉ registerWords := by
    rw [Bool.and_eq_true, Bool.not_eq_true', ← Bool.not_eq_true, isIdentifier_iff_isCapitalName,
      isRegister]
  by_cases named : IsCapitalName operand.toList ∧ operand ∉ registerWords
  · have refused : valueOf declared line operand = refuse line (.undefinedLabel operand) := by
      rw [unread]
      exact if_pos (tested.2 named)
    exact ⟨_, .undefinedLabel named.1 named.2, refused, by rw [dataValue, refused]; rfl⟩
  · have refused : valueOf declared line operand = refuse line (.invalidNumber operand) := by
      rw [unread]
      exact if_neg (mt tested.1 named)
    exact ⟨_, .invalidNumber named, refused, by rw [dataValue, refused]; rfl⟩

theorem readsOperand {declared : Declarations} {operand : String}
    (noLabel : declared.lookup operand = none)
    (short : operand.toList.length ≤ longestDecimal) (line : Nat) :
    ReadsOperand declared line operand := by
  constructor
  case number =>
    intro value
    rw [← readLiteral_iff_spells short, valueOf_of_no_label noLabel]
    cases readLiteral operand.toList with
    | number other => simp
    | tooLong => simp
    | malformed =>
        simp only [reduceCtorEq, iff_false]
        split
        · exact refuse_ne_ok
        · exact refuse_ne_ok
  case rejected => exact fun misspelled => rejected_of_not_spells noLabel misspelled line

/-- A number is refused with the same failure wherever it is. -/
theorem exists_refuseNumber_eq (line value : Nat) (cause : Cause) :
    ∃ failure, ∀ Result : Type,
      (refuseNumber line value cause : Except Failure Result) = .error failure := by
  by_cases writable : value < 10 ^ longestDecimal
  · exact ⟨.refused { line, cause }, fun Result => if_pos writable⟩
  · exact ⟨.numberTooLong, fun Result => if_neg writable⟩

/-! ## Operands as they are written -/

/-- The capitals of the text spell a number, with not too many digits. -/
def IsNumberText (text : List Char) (value : Nat) : Prop :=
  (capitals text).length < longestDecimal ∧ ∃ radix, Spells radix (capitals text) value

theorem toList_capitalText (text : List Char) : (capitalText text).toList = capitals text :=
  String.toList_ofList

theorem isMalformed_capitalText {text : List Char} (isOperand : IsOperandText text) :
    isMalformed (capitalText text) = false := by
  have plain := forall_mem_capitals caseless_isBlank isOperand.isWord.plain
  rw [isMalformed, toList_capitalText, Bool.or_eq_false_iff, List.isEmpty_eq_false_iff,
    List.any_eq_false]
  exact ⟨capitals_ne_nil isOperand.isWord.nonempty, fun letter member => by
    rw [plain letter member]
    exact Bool.false_ne_true⟩

theorem any_isMalformed_map_capitalText {texts : List (List Char)}
    (areOperands : ∀ text ∈ texts, IsOperandText text) :
    (texts.map capitalText).any isMalformed = false := by
  rw [List.any_map, List.any_eq_false]
  intro text member
  rw [Function.comp_apply, isMalformed_capitalText (areOperands text member)]
  exact Bool.false_ne_true

section Values

variable {order : ByteOrder} {numbered : List NumberedStatement} {program : Program}
  {declared : Declarations} {label : String}
  (awaits : AwaitsStatement order numbered program declared label) {text : List Char}
include awaits

theorem lookup_of_not_mem (noLabel : capitalText text ∉ program.labels.map Prod.fst) :
    declared.lookup (capitalText text) = none := by
  rw [← Option.not_isSome_iff_eq_none, awaits.names]
  exact noLabel

/-- A number is never a label. -/
theorem valueOf_of_isNumberText {value : Nat} (isNumber : IsNumberText text value) (line : Nat) :
    valueOf declared line (capitalText text) = .ok (.number value) := by
  obtain ⟨short, spells⟩ := isNumber
  rw [← toList_capitalText] at short spells
  have read := (readLiteral_iff_spells (Nat.le_of_lt short)).2 spells
  have noLabel : declared.lookup (capitalText text) = none := by
    rw [← Option.not_isSome_iff_eq_none]
    intro isLabel
    rw [readLiteral_of_isIdentifier (awaits.identifiers _ isLabel)] at read
    cases read
  exact ((readsOperand noLabel (Nat.le_of_lt short) line).number value).2 spells

end Values

/-! ## Data -/

theorem dataValue_of_valueOf_number {declared : Declarations} {line : Nat} {operand : String}
    {value : Nat} (read : valueOf declared line operand = .ok (.number value)) :
    dataValue declared line operand =
      if value < 256 then .ok (.number value) else refuseNumber line value (.byteTooWide value) := by
  rw [dataValue, read]
  rfl

/-- Data fails with the first operand that fails. -/
theorem dataBlock_of_fails {declared : Declarations} {line before : Nat} {label : String}
    {instruction : Instruction} {front back : List String} {operand : String} {failure : Failure}
    (whole : instruction.operands = front ++ operand :: back)
    (proper : instruction.operands.any isMalformed = false)
    (fits : before + instruction.operands.length ≤ longestProgram)
    (read : ∀ other ∈ front, ∃ value, dataValue declared line other = .ok value)
    (fails : dataValue declared line operand = .error failure) :
    dataBlock declared line before label instruction = .error failure := by
  have notEmpty : ¬ instruction.operands.isEmpty = true := by simp [whole]
  have checked : checkOperands line instruction.operands = .ok () :=
    checkOperands_eq_ok_iff.2 proper
  obtain ⟨values, readFront⟩ := exists_mapM_eq_ok read
  have unread : instruction.operands.mapM (dataValue declared line) = .error failure := by
    rw [whole, List.mapM_append, readFront, List.mapM_cons, fails]
    rfl
  unfold dataBlock
  rw [if_neg notEmpty, checked]
  change (if longestProgram < before + instruction.operands.length then
    refuse line .programTooLong >>= _ else _) = _
  rw [if_neg (Nat.not_lt.2 fits), unread]
  rfl

/-- What comes of a text that goes on with a line of data. -/
structure ReadsData (order : ByteOrder) (front source : List Char) (program : Program)
    (texts : List (List Char)) : Prop where
  bytes : ∀ values : List Nat,
    List.Forall₂ (fun text value => IsNumberText text value ∧ value < 256) texts values →
      ∃ longer, assemble .standard order source = .ok longer ∧
        longer.code = program.code ++ values.map UInt8.ofNat ∧ longer.labels = program.labels
  tooWide : ∀ before text after value, texts = before ++ text :: after →
    (∀ other ∈ before, ∃ byte, IsNumberText other byte ∧ byte < 256) →
      IsNumberText text value → 256 ≤ value →
        assemble .standard order source =
          refuseNumber ((lines front).length + 1) value (.byteTooWide value)
  rejected : ∀ before text after, texts = before ++ text :: after →
    (∀ other ∈ before, ∃ byte, IsNumberText other byte ∧ byte < 256) →
      capitalText text ∉ program.labels.map Prod.fst →
        (∀ radix value, ¬ Spells radix (capitals text) value) →
          ∃ cause, IsRejection (capitalText text) cause ∧
            assemble .standard order source =
              .error (.refused { line := (lines front).length + 1, cause })

theorem readsData {order : ByteOrder} {front source : List Char} {program : Program}
    {texts : List (List Char)} (assembles : assemble .standard order front = .ok program)
    (listed : texts ≠ []) (areOperands : ∀ text ∈ texts, IsOperandText text)
    (fits : program.code.length + texts.length ≤ longestProgram)
    (continues : lines source = lines front ++ [operandLine dataDirective.toList texts]) :
    ReadsData order front source program texts := by
  have isWord : IsWord dataDirective.toList := by decide
  have noLabel : dataDirective.toList.getLast? ≠ some ':' := by decide
  have directive : capitalText dataDirective.toList = dataDirective := by decide
  have oneMore := statements_of_operandLine areOperands listed isWord noLabel continues
  rw [directive] at oneMore
  obtain ⟨declared, label, awaits⟩ := exists_awaitsStatement assembles
  have proper := any_isMalformed_map_capitalText areOperands
  have fitsOperands : program.code.length + (texts.map capitalText).length ≤ longestProgram := by
    rwa [List.length_map]
  have isData : ∀ line, blockOf .standard order declared line program.code.length label
      { mnemonic := dataDirective, operands := texts.map capitalText } =
        dataBlock declared line program.code.length label
          { mnemonic := dataDirective, operands := texts.map capitalText } :=
    fun line => blockOf_of_data rfl
  have readByte : ∀ line text value, IsNumberText text value → value < 256 →
      dataValue declared line (capitalText text) = .ok (.number value) := by
    intro line text value isNumber narrow
    rw [dataValue_of_valueOf_number (valueOf_of_isNumberText awaits isNumber line), if_pos narrow]
  have failsWith : ∀ before text after failure, texts = before ++ text :: after →
      (∀ other ∈ before, ∃ byte, IsNumberText other byte ∧ byte < 256) →
        dataValue declared ((lines front).length + 1) (capitalText text) = .error failure →
          assemble .standard order source = .error failure := by
    intro before text after failure whole readBefore fails
    rw [assemble, oneMore]
    refine awaits.fails _ _ failure ?_
    rw [isData]
    refine dataBlock_of_fails (by rw [whole, List.map_append, List.map_cons]) proper fitsOperands
      ?_ fails
    intro other member
    obtain ⟨before, inBefore, rfl⟩ := List.mem_map.1 member
    obtain ⟨byte, isNumber, narrow⟩ := readBefore before inBefore
    exact ⟨_, readByte _ before byte isNumber narrow⟩
  constructor
  case bytes =>
    intro values areBytes
    obtain ⟨bytes, noReferences⟩ := dataBlockOf_numbers ((lines front).length + 1) label
      { mnemonic := dataDirective, operands := texts.map capitalText } values
    have read : List.Forall₂
        (fun operand value => dataValue declared ((lines front).length + 1) operand = .ok value)
        (texts.map capitalText) (values.map Value.number) := by
      rw [List.forall₂_map_left_iff, List.forall₂_map_right_iff]
      exact areBytes.imp fun text value isByte => readByte _ text value isByte.1 isByte.2
    rw [assemble, oneMore, ← bytes]
    refine awaits.emits _ _ _ ?_ noReferences
    rw [isData, dataBlock_eq_ok_iff]
    exact ⟨by simpa using listed, proper, fitsOperands, _, read, rfl⟩
  case tooWide =>
    intro before text after value whole readBefore isNumber wide
    obtain ⟨failure, refused⟩ :=
      exists_refuseNumber_eq ((lines front).length + 1) value (.byteTooWide value)
    rw [refused]
    refine failsWith before text after failure whole readBefore ?_
    rw [dataValue_of_valueOf_number (valueOf_of_isNumberText awaits isNumber _),
      if_neg (Nat.not_lt.2 wide), refused]
  case rejected =>
    intro before text after whole readBefore unlabelled misspelled
    rw [← toList_capitalText] at misspelled
    obtain ⟨cause, isRejection, _, fails⟩ := rejected_of_not_spells
      (lookup_of_not_mem awaits unlabelled) misspelled ((lines front).length + 1)
    exact ⟨cause, isRejection, failsWith before text after _ whole readBefore fails⟩

/-! ## Immediates -/

/-- The operands of a form as texts, with a text in the place of the immediate. -/
def filledTexts (form : Form) (text : List Char) : List (List Char) :=
  form.operands.map fun token => if Token.isPlaceholder token then text else token.toList

theorem isWord_of_isPlainToken {token : String} (plain : isPlainToken token = true) :
    IsWord token.toList := by
  refine ⟨ne_nil_of_isPlainToken plain, isBlank_of_isPlainToken plain, ?_⟩
  intro member
  exact absurd (isPlain_of_isPlainToken plain ';' member) (by decide)

section Form

variable {opcode : UInt8} {form : Form} (found : OpcodeTable.standard.form? opcode = some form)
  {text : List Char} (isOperand : IsOperandText text)
include found

theorem map_capitalText_filledTexts (text : List Char) :
    (filledTexts form text).map capitalText = filledOperands form (capitalText text) := by
  rw [filledTexts, filledOperands, List.map_map]
  apply List.map_congr_left
  intro token member
  rw [Function.comp_apply]
  split
  · rfl
  · exact capitalText_toList (Form.isPlainToken_operand (Form.isRegular_of_standard found) member)

theorem filledTexts_ne_nil (hasRoom : form.width ≠ 0) (text : List Char) :
    filledTexts form text ≠ [] := by
  intro empty
  have noOperands : form.operands = [] := List.map_eq_nil_iff.1 empty
  have bare : form.placeholders = [] := by
    rw [Form.placeholders, noOperands]
    rfl
  rcases Form.placeholders_cases (Form.isRegular_of_standard found) with
    ⟨_, width⟩ | ⟨byte, _⟩ | ⟨word, _⟩
  · exact hasRoom width
  · rw [bare] at byte
    cases byte
  · rw [bare] at word
    cases word

/-- Only registers are spelled out in the operands of mnemonics that have immediates. -/
theorem isLiteral_of_not_register (hasRoom : form.width ≠ 0) {operand : String}
    (noRegister : operand ∉ registerWords) :
    isLiteral (OpcodeTable.standard.literalOperands form.mnemonic) operand = false := by
  have regular := Form.isRegular_of_standard found
  rw [isLiteral, Bool.or_eq_false_iff]
  refine ⟨Bool.eq_false_iff.2 (mt List.contains_iff_mem.1 noRegister), Bool.eq_false_iff.2 ?_⟩
  intro spelled
  rcases OpcodeTable.isRegisterWord_or_restart (Form.isPlainToken_mnemonic regular)
    (List.contains_iff_mem.1 spelled) with isRegister | ⟨restarts, _⟩
  · exact noRegister (List.contains_iff_mem.1 isRegister)
  · rcases Form.placeholders_cases regular with ⟨_, width⟩ | ⟨byte, _⟩ | ⟨word, _⟩
    · exact hasRoom width
    · rw [Form.placeholders_of_restart regular restarts] at byte
      cases byte
    · rw [Form.placeholders_of_restart regular restarts] at word
      cases word

include isOperand

theorem isOperandText_filledTexts : ∀ other ∈ filledTexts form text, IsOperandText other := by
  intro other member
  obtain ⟨token, inForm, rfl⟩ := List.mem_map.1 member
  have plain := Form.isPlainToken_operand (Form.isRegular_of_standard found) inForm
  split
  · exact isOperand
  · exact ⟨isWord_of_isPlainToken plain, not_mem_comma plain⟩

end Form

theorem not_mem_registerWords_of_spells {operand : String} {radix : Radix} {value : Nat}
    (spells : Spells radix operand.toList value) : operand ∉ registerWords := by
  have everyWord : ∀ word ∈ registerWords, readLiteral word.toList = .malformed ∧
      word.toList.length ≤ longestDecimal := by decide
  intro member
  obtain ⟨malformed, short⟩ := everyWord operand member
  rw [(readLiteral_iff_spells short).2 ⟨radix, spells⟩] at malformed
  cases malformed

/-- What comes of a text that goes on with a line of an instruction with an immediate. -/
structure ReadsImmediate (order : ByteOrder) (front source : List Char) (program : Program)
    (opcode : UInt8) (form : Form) (text : List Char) : Prop where
  bytes : ∀ value, IsNumberText text value → value < 256 ^ form.width →
    ∃ longer, assemble .standard order source = .ok longer ∧
      longer.code = program.code ++ opcode :: immediateBytes order form.width value ∧
      longer.labels = program.labels
  tooWide : ∀ value, IsNumberText text value → 256 ^ form.width ≤ value →
    assemble .standard order source =
      refuseNumber ((lines front).length + 1) value (.valueTooWide value form.width)
  rejected : capitalText text ∉ registerWords → capitalText text ∉ program.labels.map Prod.fst →
    (∀ radix value, ¬ Spells radix (capitals text) value) →
      ∃ cause, IsRejection (capitalText text) cause ∧
        assemble .standard order source =
          .error (.refused { line := (lines front).length + 1, cause })

theorem readsImmediate {order : ByteOrder} {front source : List Char} {program : Program}
    {opcode : UInt8} {form : Form} {text : List Char}
    (assembles : assemble .standard order front = .ok program)
    (found : OpcodeTable.standard.form? opcode = some form) (hasRoom : form.width ≠ 0)
    (isOperand : IsOperandText text)
    (fits : program.code.length + form.length ≤ longestProgram)
    (continues : lines source = lines front ++
      [operandLine form.mnemonic.toList (filledTexts form text)]) :
    ReadsImmediate order front source program opcode form text := by
  have regular := Form.isRegular_of_standard found
  have named := Form.isPlainToken_mnemonic regular
  have noLabel : form.mnemonic.toList.getLast? ≠ some ':' := by
    intro isLast
    have plain := isPlain_of_isPlainToken named ':' (List.mem_of_getLast? isLast)
    exact absurd plain (by decide)
  have areOperands := isOperandText_filledTexts found isOperand
  have oneMore := statements_of_operandLine areOperands (filledTexts_ne_nil found hasRoom text)
    (isWord_of_isPlainToken named) noLabel continues
  rw [capitalText_toList named, map_capitalText_filledTexts found, ← filledInstruction] at oneMore
  have proper := any_isMalformed_map_capitalText areOperands
  rw [map_capitalText_filledTexts found] at proper
  obtain ⟨declared, label, awaits⟩ := exists_awaitsStatement assembles
  have isCode : ∀ line, blockOf .standard order declared line program.code.length label
      (filledInstruction form (capitalText text)) =
        instructionBlock .standard order declared line program.code.length label
          (filledInstruction form (capitalText text)) :=
    fun line => blockOf_of_no_data (Form.mnemonic_ne_dataDirective regular)
  have looked : ∀ value, IsNumberText text value → ∀ line,
      formFor .standard declared line (filledInstruction form (capitalText text)) =
        .ok (opcode, form, some (.number value)) := by
    intro value isNumber line
    have free : isLiteral (OpcodeTable.standard.literalOperands form.mnemonic)
        (capitalText text) = false := by
      obtain ⟨radix, spells⟩ := isNumber.2
      rw [← toList_capitalText] at spells
      exact isLiteral_of_not_register found hasRoom (not_mem_registerWords_of_spells spells)
    obtain ⟨last, success, ⟨width, _⟩ | ⟨_, rfl⟩⟩ := formFor_filledOperands found free proper
      (valueOf_of_isNumberText awaits isNumber line)
    · exact absurd width hasRoom
    · exact success
  constructor
  case bytes =>
    intro value isNumber narrow
    have filled : immediateOf order ((lines front).length + 1) form.width (some (.number value)) =
        .ok { bytes := immediateBytes order form.width value, references := [] } := by
      rw [immediateOf, if_neg hasRoom, if_pos narrow]
    rw [assemble, oneMore]
    apply awaits.emits _ _
      (codeBlock ((lines front).length + 1) label (filledInstruction form (capitalText text)) opcode
        form { bytes := immediateBytes order form.width value, references := [] }) _ rfl
    rw [isCode, instructionBlock_eq_ok_iff]
    exact ⟨opcode, form, _, _, looked value isNumber _, fits, filled, rfl⟩
  case tooWide =>
    intro value isNumber wide
    obtain ⟨failure, refused⟩ := exists_refuseNumber_eq ((lines front).length + 1) value
      (.valueTooWide value form.width)
    rw [assemble, oneMore, refused]
    refine awaits.fails _ _ failure ?_
    rw [isCode]
    apply instructionBlock_of_unfilled (looked value isNumber _) fits
    rw [immediateOf, if_neg hasRoom, if_neg (Nat.not_lt.2 wide), refused]
  case rejected =>
    intro noRegister unlabelled misspelled
    rw [← toList_capitalText] at misspelled
    obtain ⟨cause, isRejection, fails, _⟩ := rejected_of_not_spells
      (lookup_of_not_mem awaits unlabelled) misspelled ((lines front).length + 1)
    refine ⟨cause, isRejection, ?_⟩
    rw [assemble, oneMore]
    refine awaits.fails _ _ _ ?_
    rw [isCode, instructionBlock, formFor_filledOperands_of_error found
      (isLiteral_of_not_register found hasRoom noRegister) proper hasRoom fails]
    rfl

/-! ## Numbers wherever they stand -/

/-- Numbers are read by their grammar, by themselves and as operands: as the values of data and as
immediates. -/
structure ReadsNumbers (order : ByteOrder) : Prop where
  accepts : ∀ text value, text.length < longestDecimal →
    (readLiteral text = .number value ↔ ∃ radix, Spells radix text value)
  hexadecimal : ∀ digits value : Nat, readLiteral (hexLiteral digits value) = .number value
  positional : ∀ (radix : Radix) (zeros value : Nat), radix ≠ .hexadecimal →
    (radix = .decimal → zeros + (Nat.toDigits 10 value).length ≤ longestDecimal) →
      readLiteral (List.replicate zeros '0' ++ (Nat.toDigits radix.size value ++ radix.suffix)) =
        .number value
  operands : ∀ (declared : Declarations) (line : Nat) (operand : String),
    declared.lookup operand = none → operand.toList.length < longestDecimal →
      ReadsOperand declared line operand
  data : ∀ (front source : List Char) (program : Program) (texts : List (List Char)),
    assemble .standard order front = .ok program → texts ≠ [] →
      (∀ text ∈ texts, IsOperandText text) →
        program.code.length + texts.length ≤ longestProgram →
          lines source = lines front ++ [operandLine dataDirective.toList texts] →
            ReadsData order front source program texts
  immediates : ∀ (front source : List Char) (program : Program) (opcode : UInt8) (form : Form)
    (text : List Char), assemble .standard order front = .ok program →
      OpcodeTable.standard.form? opcode = some form → form.width ≠ 0 → IsOperandText text →
        program.code.length + form.length ≤ longestProgram →
          lines source =
              lines front ++ [operandLine form.mnemonic.toList (filledTexts form text)] →
            ReadsImmediate order front source program opcode form text

theorem readLiteral_positional {radix : Radix} (noLetters : radix ≠ .hexadecimal)
    {zeros value : Nat}
    (short : radix = .decimal → zeros + (Nat.toDigits 10 value).length ≤ longestDecimal) :
    readLiteral (List.replicate zeros '0' ++ (Nat.toDigits radix.size value ++ radix.suffix)) =
      .number value := by
  apply readLiteral_of_isNumeral (spells_iff_isNumeral.1 (spells_toDigits noLetters zeros value))
  rintro rfl
  simpa [Radix.suffix, Radix.size] using short rfl

/-- A number is read by the grammar of numbers, and as that number, wherever a source text has it
for an operand; what is no number is rejected there. -/
theorem assemble_readsNumbers (config : Config) : ReadsNumbers config.operandOrder := by
  constructor
  case accepts => exact fun text value short => readLiteral_iff_spells (Nat.le_of_lt short)
  case hexadecimal => exact readLiteral_hexLiteral
  case positional => exact fun radix zeros value noLetters => readLiteral_positional noLetters
  case operands =>
    exact fun declared line operand noLabel short => readsOperand noLabel (Nat.le_of_lt short) line
  case data => exact fun front source program texts => readsData
  case immediates => exact fun front source program opcode form text => readsImmediate

/-- Numbers in two bases as data, and one that lacks the zero in front. -/
theorem assemble_readsNumbers_of_suffixes :
    (∃ program, assemble .standard Config.standard.operandOrder "NOP\nDB 101B,0ah".toList =
        .ok program ∧ program.code = [0, 5, 10]) ∧
      ∃ cause, IsRejection "FFH" cause ∧
        assemble .standard Config.standard.operandOrder "NOP\nDB FFh".toList =
          .error (.refused { line := 2, cause }) := by
  obtain ⟨program, assembles, code, labels⟩ : ∃ program,
      assemble .standard Config.standard.operandOrder "NOP".toList = .ok program ∧
        program.code = [0] ∧ program.labels = [] := ⟨_, rfl, rfl, rfl⟩
  have reads := (assemble_readsNumbers .standard).data "NOP".toList
  constructor
  · have binary : IsNumberText "101B".toList 5 :=
      ⟨by decide, (readLiteral_iff_spells (by decide)).1 (by decide)⟩
    have hexadecimal : IsNumberText "0ah".toList 10 :=
      ⟨by decide, (readLiteral_iff_spells (by decide)).1 (by decide)⟩
    have data := reads "NOP\nDB 101B,0ah".toList program ["101B".toList, "0ah".toList] assembles
      (List.cons_ne_nil _ _) (by decide) (by rw [code]; decide) (by decide)
    obtain ⟨longer, succeeds, longerCode, _⟩ := data.bytes [5, 10]
      (.cons ⟨binary, by decide⟩ (.cons ⟨hexadecimal, by decide⟩ .nil))
    refine ⟨longer, succeeds, ?_⟩
    rw [longerCode, code]
    rfl
  · have data := reads "NOP\nDB FFh".toList program ["FFh".toList] assembles
      (List.cons_ne_nil _ _) (by decide) (by rw [code]; decide) (by decide)
    apply data.rejected [] "FFh".toList [] rfl (by simp) (by simp [labels])
    intro radix value spells
    have malformed : readLiteral (capitals "FFh".toList) = .malformed := by decide
    rw [(readLiteral_iff_spells (by decide)).2 ⟨radix, spells⟩] at malformed
    cases malformed

end Intel8085.Assembly
