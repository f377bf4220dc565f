import Intel8085.Assembly.Block
import Intel8085.Proofs.InstructionSet.StandardForms
import Intel8085.Proofs.Results

/-!
# How operands are looked up

An operand of source text is either a literal operand, which stands for itself, or the number or
label in the place of an immediate.  `formFor_eq_ok_iff` says when an instruction has a form and what
the form and the immediate are; with the standard table the operands then agree with the operand
tokens of the form one by one (`formFor_standard_eq_ok_iff`).
-/

set_option autoImplicit false

namespace Intel8085.Assembly

open Intel8085.Text Intel8085.Source

/-- The operand stands for itself. -/
def isLiteral (literals : List String) (operand : String) : Bool :=
  isRegisterWord operand || literals.contains operand

/-- The token that an operand is looked up by. -/
def operandToken (literals : List String) (operand : String) : String :=
  if isLiteral literals operand then operand else Token.anyImmediate

/-- The operands that stand in the place of an immediate. -/
def immediateOperands (literals operands : List String) : List String :=
  operands.filter fun operand => !isLiteral literals operand

theorem foldlM_classify (declared : Declarations) (line : Nat) (literals operands : List String)
    (classified : Classified) :
    operands.foldlM (classify declared line literals) classified =
      (fun values =>
        { tokens := (operands.map (operandToken literals)).reverse ++ classified.tokens
          value := values.getLast?.or classified.value }) <$>
        (immediateOperands literals operands).mapM (valueOf declared line) := by
  induction operands generalizing classified with
  | nil => rfl
  | cons operand others inductionHypothesis =>
      rw [List.foldlM_cons]
      by_cases literal : isLiteral literals operand = true
      · have first : classify declared line literals classified operand =
            .ok { classified with tokens := operand :: classified.tokens } := by
          rw [classify, ← isLiteral, if_pos literal]
        have token : operandToken literals operand = operand := if_pos literal
        have skipped : immediateOperands literals (operand :: others) =
            immediateOperands literals others := by
          simp [immediateOperands, literal]
        rw [first, skipped]
        change others.foldlM (classify declared line literals)
          { classified with tokens := operand :: classified.tokens } = _
        rw [inductionHypothesis]
        simp [token]
      · have first : classify declared line literals classified operand =
            valueOf declared line operand >>= fun value =>
              pure { tokens := Token.anyImmediate :: classified.tokens, value := some value } := by
          rw [classify, ← isLiteral, if_neg literal]
        have token : operandToken literals operand = Token.anyImmediate := if_neg literal
        have kept : immediateOperands literals (operand :: others) =
            operand :: immediateOperands literals others := by
          simp [immediateOperands, literal]
        rw [first, kept, List.mapM_cons]
        cases found : valueOf declared line operand with
        | error failure => rfl
        | ok value =>
            change others.foldlM (classify declared line literals)
              { tokens := Token.anyImmediate :: classified.tokens, value := some value } = _
            rw [inductionHypothesis]
            cases (immediateOperands literals others).mapM (valueOf declared line) with
            | error failure => rfl
            | ok values =>
                change Except.ok _ = Except.ok _
                simp [token, List.getLast?_cons, Option.or_some]

/-! ## The form of an instruction -/

theorem refuse_ne_ok {Result : Type} {line : Nat} {cause : Cause} {result : Result} :
    (refuse line cause : Except Failure Result) ≠ .ok result := by
  intro impossible
  cases impossible

theorem ite_refuse_eq_ok_iff {Result : Type} {condition : Prop} [Decidable condition] {line : Nat}
    {cause : Cause} {next : Unit → Except Failure Result} {action : Except Failure Result}
    {result : Result} :
    (if condition then refuse line cause >>= next else action) = .ok result ↔
      ¬ condition ∧ action = .ok result := by
  by_cases holds : condition
  · rw [if_pos holds]
    exact ⟨fun impossible => absurd impossible refuse_ne_ok, fun both => absurd holds both.1⟩
  · rw [if_neg holds]
    exact ⟨fun success => ⟨holds, success⟩, And.right⟩

theorem checkOperands_eq_ok_iff {line : Nat} {operands : List String} {result : Unit} :
    checkOperands line operands = .ok result ↔ operands.any isMalformed = false := by
  cases malformed : operands.any isMalformed with
  | false => simp [checkOperands, malformed]
  | true => simp [checkOperands, malformed, refuse_ne_ok]

/-- What the tokens of an instruction are found to be. -/
theorem lookup_eq_ok_iff {table : OpcodeTable} {line : Nat} {cause : Cause} {found : Option UInt8}
    {value : Option Value} {result : UInt8 × Form × Option Value} :
    (match found with
      | none => refuse line cause
      | some opcode =>
          match table.form? opcode with
          | none => refuse line cause
          | some form => pure (opcode, form, value)) = (.ok result : Except Failure _) ↔
      found = some result.1 ∧ table.form? result.1 = some result.2.1 ∧ value = result.2.2 := by
  cases found with
  | none => simp [refuse_ne_ok]
  | some opcode =>
      dsimp only
      cases cell : table.form? opcode with
      | none =>
          simp only [refuse_ne_ok, false_iff, Option.some.injEq, not_and]
          rintro rfl absent
          rw [cell] at absent
          exact absurd absent (by simp)
      | some form =>
          rw [pure_eq_ok_iff]
          constructor
          · rintro rfl
            exact ⟨rfl, cell, rfl⟩
          · obtain ⟨resultOpcode, resultForm, resultValue⟩ := result
            rintro ⟨sameOpcode, sameForm, sameValue⟩
            cases Option.some.inj sameOpcode
            rw [cell] at sameForm
            cases Option.some.inj sameForm
            cases sameValue
            rfl

theorem formFor_eq_ok_iff {table : OpcodeTable} {declared : Declarations} {line : Nat}
    {instruction : Instruction} {opcode : UInt8} {form : Form} {value : Option Value} :
    formFor table declared line instruction = .ok (opcode, form, value) ↔
      table.hasMnemonic instruction.mnemonic = true ∧
        instruction.operands.any isMalformed = false ∧
        ∃ values,
          (immediateOperands (table.literalOperands instruction.mnemonic)
            instruction.operands).mapM (valueOf declared line) = .ok values ∧
          table.encode (instruction.mnemonic :: instruction.operands.map
            (operandToken (table.literalOperands instruction.mnemonic))) = some opcode ∧
          table.form? opcode = some form ∧ values.getLast? = value := by
  unfold formFor
  simp only [ite_refuse_eq_ok_iff, bind_eq_ok_iff, foldlM_classify, map_eq_ok_iff,
    checkOperands_eq_ok_iff]
  constructor
  · rintro ⟨known, _, proper, _, ⟨values, found, rfl⟩, looked⟩
    obtain ⟨encoded, cell, same⟩ := lookup_eq_ok_iff.1 looked
    rw [List.append_nil, List.reverse_reverse] at encoded
    rw [Option.or_none] at same
    exact ⟨by simpa using known, proper, values, found, encoded, cell, same⟩
  · rintro ⟨known, proper, values, found, encoded, cell, same⟩
    refine ⟨by simpa using known, (), proper, _, ⟨values, found, rfl⟩, lookup_eq_ok_iff.2 ?_⟩
    rw [List.append_nil, List.reverse_reverse, Option.or_none]
    exact ⟨encoded, cell, same⟩

/-! ## Operands of the standard table -/

/-- The operand of a statement and the operand token of a form go together: either both spell the
same literal, or the token is a placeholder and the operand no literal. -/
inductive OperandFits (literals : List String) (operand : String) : String → Prop where
  | literal (spelled : isLiteral literals operand = true)
      (noPlaceholder : Token.isPlaceholder operand = false) : OperandFits literals operand operand
  | immediate {token : String} (free : isLiteral literals operand = false)
      (placeholder : Token.isPlaceholder token = true) : OperandFits literals operand token

theorem properties_of_isLiteral {mnemonic operand : String}
    (spelled : isLiteral (OpcodeTable.standard.literalOperands mnemonic) operand = true) :
    isPlainToken operand = true ∧ Token.isPlaceholder operand = false ∧
      operand ≠ Token.anyImmediate := by
  rw [isLiteral, Bool.or_eq_true] at spelled
  rcases spelled with named | listed
  · have everyWord : ∀ word ∈ registerWords, isPlainToken word = true ∧
        Token.isPlaceholder word = false ∧ word ≠ Token.anyImmediate := by decide
    exact everyWord operand (List.contains_iff_mem.1 named)
  · obtain ⟨opcode, form, found, _, member⟩ :=
      (OpcodeTable.mem_literalOperands_iff _ _ _).1 (List.contains_iff_mem.1 listed)
    have regular := Form.isRegular_of_standard found
    obtain ⟨isOperand, noPlaceholder⟩ := List.mem_filter.1 member
    exact ⟨Form.isPlainToken_operand regular isOperand, by simpa using noPlaceholder,
      Form.operand_ne_anyImmediate regular isOperand⟩

theorem collapse_of_isPlaceholder {token : String} (placeholder : Token.isPlaceholder token = true) :
    Token.collapse token = Token.anyImmediate := if_pos placeholder

theorem collapse_of_not_isPlaceholder {token : String}
    (noPlaceholder : Token.isPlaceholder token = false) : Token.collapse token = token := by
  rw [Token.collapse, noPlaceholder]
  rfl

theorem isPlaceholder_of_collapse {token : String} (same : Token.collapse token = Token.anyImmediate)
    (different : token ≠ Token.anyImmediate) : Token.isPlaceholder token = true := by
  cases placeholder : Token.isPlaceholder token with
  | true => rfl
  | false => exact absurd ((collapse_of_not_isPlaceholder placeholder).symm.trans same) different

theorem collapse_operandToken_eq_iff {mnemonic operand token : String}
    (different : token ≠ Token.anyImmediate) :
    Token.collapse token = Token.collapse (upperCase
        (operandToken (OpcodeTable.standard.literalOperands mnemonic) operand)) ↔
      OperandFits (OpcodeTable.standard.literalOperands mnemonic) operand token := by
  cases spelled : isLiteral (OpcodeTable.standard.literalOperands mnemonic) operand with
  | true =>
      obtain ⟨plain, noPlaceholder, proper⟩ := properties_of_isLiteral spelled
      have looked : operandToken (OpcodeTable.standard.literalOperands mnemonic) operand = operand :=
        if_pos spelled
      rw [looked, upperCase_of_isPlainToken plain, collapse_of_not_isPlaceholder noPlaceholder]
      constructor
      · intro same
        cases placeholder : Token.isPlaceholder token with
        | true =>
            rw [collapse_of_isPlaceholder placeholder] at same
            exact absurd same.symm proper
        | false =>
            rw [collapse_of_not_isPlaceholder placeholder] at same
            rw [same]
            exact .literal spelled noPlaceholder
      · intro fits
        cases fits with
        | literal _ noPlaceholder => exact collapse_of_not_isPlaceholder noPlaceholder
        | immediate free _ => exact absurd (spelled.symm.trans free) (by decide)
  | false =>
      have looked : operandToken (OpcodeTable.standard.literalOperands mnemonic) operand =
          Token.anyImmediate := by
        rw [operandToken, spelled]
        rfl
      have fixed : Token.collapse (upperCase Token.anyImmediate) = Token.anyImmediate := by decide
      rw [looked, fixed]
      constructor
      · intro same
        exact .immediate spelled (isPlaceholder_of_collapse same different)
      · intro fits
        cases fits with
        | literal spelledToo _ => exact absurd (spelledToo.symm.trans spelled) (by decide)
        | immediate _ placeholder => exact collapse_of_isPlaceholder placeholder

theorem signatureOf_operands_iff {mnemonic : String} {operands tokens : List String}
    (different : ∀ token ∈ tokens, token ≠ Token.anyImmediate) :
    signatureOf tokens = signatureOf ((operands.map
        (operandToken (OpcodeTable.standard.literalOperands mnemonic))).map upperCase) ↔
      List.Forall₂ (OperandFits (OpcodeTable.standard.literalOperands mnemonic)) operands tokens := by
  induction tokens generalizing operands with
  | nil =>
      rw [List.forall₂_nil_right_iff]
      cases operands with
      | nil => simp [signatureOf]
      | cons operand others => simp [signatureOf]
  | cons token tokens inductionHypothesis =>
      have restDifferent : ∀ other ∈ tokens, other ≠ Token.anyImmediate := by
        intro other member
        exact different other (List.mem_cons_of_mem token member)
      cases operands with
      | nil => simp [signatureOf]
      | cons operand others =>
          rw [List.forall₂_cons, ← inductionHypothesis restDifferent,
            ← collapse_operandToken_eq_iff (different token List.mem_cons_self)]
          simp only [signatureOf, List.map_cons, List.cons.injEq]

/-- An instruction encodes to the opcode of a form exactly when it has the form's mnemonic and its
operands fit the form's operand tokens one by one. -/
theorem encode_standard_iff {mnemonic : String} {operands : List String} {opcode : UInt8}
    {form : Form} (known : isPlainToken mnemonic = true)
    (noPlaceholder : Token.isPlaceholder mnemonic = false)
    (found : OpcodeTable.standard.form? opcode = some form) :
    OpcodeTable.standard.encode (mnemonic :: operands.map
        (operandToken (OpcodeTable.standard.literalOperands mnemonic))) = some opcode ↔
      form.mnemonic = mnemonic ∧
        List.Forall₂ (OperandFits (OpcodeTable.standard.literalOperands mnemonic)) operands
          form.operands := by
  have regular := Form.isRegular_of_standard found
  have signatures : form.signature = signatureOf ((mnemonic :: operands.map
        (operandToken (OpcodeTable.standard.literalOperands mnemonic))).map upperCase) ↔
      form.mnemonic = mnemonic ∧
        List.Forall₂ (OperandFits (OpcodeTable.standard.literalOperands mnemonic)) operands
          form.operands := by
    rw [form.signature_eq, List.map_cons, signatureOf, signatureOf, List.map_cons, List.map_cons,
      List.cons.injEq, Form.collapse_mnemonic regular, upperCase_of_isPlainToken known,
      collapse_of_not_isPlaceholder noPlaceholder, ← signatureOf, ← signatureOf,
      signatureOf_operands_iff fun token => Form.operand_ne_anyImmediate regular]
  rw [OpcodeTable.encode_eq_some_iff]
  constructor
  · rintro ⟨other, otherFound, same⟩
    rw [found] at otherFound
    cases otherFound
    exact signatures.1 same
  · intro fits
    exact ⟨form, found, signatures.2 fits⟩

theorem formFor_standard_eq_ok_iff {declared : Declarations} {line : Nat} {instruction : Instruction}
    {opcode : UInt8} {form : Form} {value : Option Value} :
    formFor .standard declared line instruction = .ok (opcode, form, value) ↔
      OpcodeTable.standard.form? opcode = some form ∧ form.mnemonic = instruction.mnemonic ∧
        List.Forall₂ (OperandFits (OpcodeTable.standard.literalOperands instruction.mnemonic))
          instruction.operands form.operands ∧
        instruction.operands.any isMalformed = false ∧
        ∃ values,
          (immediateOperands (OpcodeTable.standard.literalOperands instruction.mnemonic)
            instruction.operands).mapM (valueOf declared line) = .ok values ∧
          values.getLast? = value := by
  have standing : ∀ {other : UInt8} {otherForm : Form},
      OpcodeTable.standard.form? other = some otherForm →
        otherForm.mnemonic = instruction.mnemonic →
          isPlainToken instruction.mnemonic = true ∧
            Token.isPlaceholder instruction.mnemonic = false := by
    intro other otherForm found named
    have regular := Form.isRegular_of_standard found
    rw [← named]
    exact ⟨Form.isPlainToken_mnemonic regular, Form.isPlaceholder_mnemonic regular⟩
  rw [formFor_eq_ok_iff, OpcodeTable.hasMnemonic_iff]
  constructor
  · rintro ⟨⟨other, otherForm, otherFound, named⟩, proper, values, read, encoded, found, last⟩
    obtain ⟨plain, noPlaceholder⟩ := standing otherFound named
    obtain ⟨same, fits⟩ := (encode_standard_iff plain noPlaceholder found).1 encoded
    exact ⟨found, same, fits, proper, values, read, last⟩
  · rintro ⟨found, named, fits, proper, values, read, last⟩
    obtain ⟨plain, noPlaceholder⟩ := standing found named
    exact ⟨⟨opcode, form, found, named⟩, proper, values, read,
      (encode_standard_iff plain noPlaceholder found).2 ⟨named, fits⟩, found, last⟩

/-! ## Plain and hexadecimal operands -/

theorem isMalformed_of_isPlainToken {operand : String} (plain : isPlainToken operand = true) :
    isMalformed operand = false := by
  have noBlank := isBlank_of_isPlainToken plain
  rw [isMalformed, Bool.or_eq_false_iff]
  constructor
  · rw [List.isEmpty_eq_false_iff]
    exact ne_nil_of_isPlainToken plain
  · rw [List.any_eq_false]
    intro character member
    rw [noBlank character member]
    decide

theorem any_isMalformed_of_plain {operands : List String}
    (plain : ∀ operand ∈ operands, isPlainToken operand = true) :
    operands.any isMalformed = false := by
  rw [List.any_eq_false]
  intro operand member
  rw [isMalformed_of_isPlainToken (plain operand member)]
  decide

theorem isLiteral_hexLiteral {mnemonic : String} (named : isPlainToken mnemonic = true)
    (digits number : Nat) :
    isLiteral (OpcodeTable.standard.literalOperands mnemonic)
      (String.ofList (hexLiteral digits number)) = false := by
  rw [isLiteral, isRegisterWord_hexLiteral, OpcodeTable.contains_literalOperands_hexLiteral named]
  rfl

theorem valueOf_hexLiteral {declared : Declarations} {digits number : Nat}
    (noLabel : declared.lookup (String.ofList (hexLiteral digits number)) = none) (line : Nat) :
    valueOf declared line (String.ofList (hexLiteral digits number)) = .ok (.number number) := by
  simp only [valueOf, noLabel, String.toList_ofList, readLiteral_hexLiteral, Option.isSome_none,
    Bool.false_eq_true, if_false]

/-! ## The immediate of an instruction -/

theorem length_immediateOperands {literals operands tokens : List String}
    (fits : List.Forall₂ (OperandFits literals) operands tokens) :
    (immediateOperands literals operands).length = (tokens.filter Token.isPlaceholder).length := by
  induction fits with
  | nil => rfl
  | cons first _ inductionHypothesis =>
      rw [immediateOperands] at inductionHypothesis ⊢
      cases first with
      | literal spelled noPlaceholder => simp [spelled, noPlaceholder, inductionHypothesis]
      | immediate free placeholder => simp [free, placeholder, inductionHypothesis]

/-- The form has room for an immediate exactly when one operand of the statement is an immediate,
and then the immediate is the value of that operand. -/
theorem immediate_of_formFor {declared : Declarations} {line : Nat} {instruction : Instruction}
    {opcode : UInt8} {form : Form} {value : Option Value}
    (success : formFor .standard declared line instruction = .ok (opcode, form, value)) :
    (form.width = 0 ∧ value = none ∧
      immediateOperands (OpcodeTable.standard.literalOperands instruction.mnemonic)
        instruction.operands = []) ∨
      ((form.width = 1 ∨ form.width = 2) ∧ ∃ operand number,
        immediateOperands (OpcodeTable.standard.literalOperands instruction.mnemonic)
          instruction.operands = [operand] ∧
        valueOf declared line operand = .ok number ∧ value = some number) := by
  obtain ⟨found, _, fits, _, values, read, last⟩ := formFor_standard_eq_ok_iff.1 success
  have count := length_immediateOperands fits
  have oneImmediate : form.placeholders.length = 1 → ∃ operand number,
      immediateOperands (OpcodeTable.standard.literalOperands instruction.mnemonic)
        instruction.operands = [operand] ∧
      valueOf declared line operand = .ok number ∧ value = some number := by
    intro one
    obtain ⟨operand, only⟩ := List.length_eq_one_iff.1 (count.trans one)
    rw [only, mapM_eq_ok_iff, List.forall₂_cons_left_iff] at read
    obtain ⟨number, rest, isValue, ends, rfl⟩ := read
    rw [List.forall₂_nil_left_iff.1 ends] at last
    exact ⟨operand, number, only, isValue, last.symm⟩
  rcases Form.placeholders_cases (Form.isRegular_of_standard found) with
    ⟨bare, width⟩ | ⟨byte, width⟩ | ⟨word, width⟩
  · have nothing : immediateOperands
        (OpcodeTable.standard.literalOperands instruction.mnemonic) instruction.operands = [] := by
      rw [← Form.placeholders, bare] at count
      exact List.length_eq_zero_iff.1 count
    rw [nothing, mapM_eq_ok_iff, List.forall₂_nil_left_iff] at read
    rw [read] at last
    exact Or.inl ⟨width, last.symm, nothing⟩
  · exact Or.inr ⟨Or.inl width, oneImmediate (by rw [byte]; rfl)⟩
  · exact Or.inr ⟨Or.inr width, oneImmediate (by rw [word]; rfl)⟩

/-! ## Forms with an operand filled in -/

/-- The operand tokens of a form, with an operand in the place of each placeholder. -/
def filledOperands (form : Form) (operand : String) : List String :=
  form.operands.map fun token => if Token.isPlaceholder token then operand else token

def filledInstruction (form : Form) (operand : String) : Instruction where
  mnemonic := form.mnemonic
  operands := filledOperands form operand

section Filled

variable {opcode : UInt8} {form : Form} (found : OpcodeTable.standard.form? opcode = some form)
include found

theorem isLiteral_of_mem_literals {token : String} (isOperand : token ∈ form.operands)
    (noPlaceholder : Token.isPlaceholder token = false) :
    isLiteral (OpcodeTable.standard.literalOperands form.mnemonic) token = true := by
  have named := Form.isPlainToken_mnemonic (Form.isRegular_of_standard found)
  have spelled : token ∈ form.literals := List.mem_filter.2 ⟨isOperand, by rw [noPlaceholder]; rfl⟩
  rw [isLiteral, Bool.or_eq_true, List.contains_iff_mem, OpcodeTable.mem_literalOperands_iff]
  exact Or.inr ⟨opcode, form, found, (upperCase_of_isPlainToken named).symm, spelled⟩

variable {operand : String}
  (free : isLiteral (OpcodeTable.standard.literalOperands form.mnemonic) operand = false)
include free

theorem operandFits_filledOperands :
    List.Forall₂ (OperandFits (OpcodeTable.standard.literalOperands form.mnemonic))
      (filledOperands form operand) form.operands := by
  rw [filledOperands, List.forall₂_map_left_iff, List.forall₂_same]
  intro token isOperand
  cases placeholder : Token.isPlaceholder token with
  | false =>
      rw [if_neg Bool.false_ne_true]
      exact .literal (isLiteral_of_mem_literals found isOperand placeholder) placeholder
  | true =>
      rw [if_pos rfl]
      exact .immediate free placeholder

theorem immediateOperands_filledOperands :
    immediateOperands (OpcodeTable.standard.literalOperands form.mnemonic)
      (filledOperands form operand) = List.replicate form.placeholders.length operand := by
  have count := length_immediateOperands (operandFits_filledOperands found free)
  rw [List.eq_replicate_iff]
  refine ⟨count, ?_⟩
  intro other member
  obtain ⟨isFilled, noLiteral⟩ := List.mem_filter.1 member
  obtain ⟨token, isOperand, rfl⟩ := List.mem_map.1 isFilled
  cases placeholder : Token.isPlaceholder token with
  | false =>
      rw [placeholder, if_neg Bool.false_ne_true,
        isLiteral_of_mem_literals found isOperand placeholder] at noLiteral
      cases noLiteral
  | true => rfl

variable {declared : Declarations} {line : Nat}
  (proper : (filledOperands form operand).any isMalformed = false)
include proper

/-- A form with a value filled in is found again, with the value if it has room for one. -/
theorem formFor_filledOperands {value : Value} (read : valueOf declared line operand = .ok value) :
    ∃ last, formFor .standard declared line (filledInstruction form operand) =
        .ok (opcode, form, last) ∧
      (form.width = 0 ∧ last = none ∨ (form.width = 1 ∨ form.width = 2) ∧ last = some value) := by
  have readAll : ∀ count, (List.replicate count operand).mapM (valueOf declared line) =
      .ok (List.replicate count value) := by
    intro count
    rw [mapM_eq_ok_iff]
    induction count with
    | zero => exact .nil
    | succ count inductionHypothesis => exact .cons read inductionHypothesis
  have looked : formFor .standard declared line (filledInstruction form operand) =
      .ok (opcode, form, (List.replicate form.placeholders.length value).getLast?) := by
    rw [formFor_standard_eq_ok_iff]
    refine ⟨found, rfl, operandFits_filledOperands found free, proper, _, ?_, rfl⟩
    rw [filledInstruction, immediateOperands_filledOperands found free]
    exact readAll _
  refine ⟨_, looked, ?_⟩
  rcases Form.placeholders_cases (Form.isRegular_of_standard found) with
    ⟨bare, width⟩ | ⟨byte, width⟩ | ⟨word, width⟩
  · exact Or.inl ⟨width, by rw [bare]; rfl⟩
  · exact Or.inr ⟨Or.inl width, by rw [byte]; rfl⟩
  · exact Or.inr ⟨Or.inr width, by rw [word]; rfl⟩

theorem formFor_filledOperands_of_error (hasRoom : form.width ≠ 0) {failure : Failure}
    (fails : valueOf declared line operand = .error failure) :
    formFor .standard declared line (filledInstruction form operand) = .error failure := by
  have one : form.placeholders.length = 1 := by
    rcases Form.placeholders_cases (Form.isRegular_of_standard found) with
      ⟨_, width⟩ | ⟨byte, _⟩ | ⟨word, _⟩
    · exact absurd width hasRoom
    · rw [byte]
      rfl
    · rw [word]
      rfl
  have only := immediateOperands_filledOperands found free
  have known : OpcodeTable.standard.hasMnemonic form.mnemonic = true :=
    (OpcodeTable.hasMnemonic_iff _ _).2 ⟨opcode, form, found, rfl⟩
  have checked : checkOperands line (filledOperands form operand) = .ok () :=
    checkOperands_eq_ok_iff.2 proper
  rw [one, List.replicate_one] at only
  unfold formFor filledInstruction
  simp only [known, Bool.not_true, Bool.false_eq_true, if_false, checked, foldlM_classify, only,
    List.mapM_cons, fails]
  rfl

end Filled

end Intel8085.Assembly
