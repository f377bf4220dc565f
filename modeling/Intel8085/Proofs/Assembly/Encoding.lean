import Intel8085.Proofs.Assembly.Failures
import Intel8085.Proofs.Assembly.Layout

/-!
# What statements encode to

Whether an instruction or data can be encoded depends on its operands, on the forms of the standard
table, and on the names of the labels of the whole text (`Encodes`).  A statement has a block exactly
when it can be encoded and the program still fits in memory behind the bytes before it
(`encodes_of_blockOf`, `exists_block_of_encodes`), and it emits one number of bytes and uses one list
of labels (`encodes_unique`).
-/

set_option autoImplicit false

namespace Intel8085.Assembly

open Intel8085.Text Intel8085.Source

/-- An operand in the place of so many immediate bytes is the name of a label, or the numeral of a
number that they hold. -/
inductive Denotes (names : List String) (width : Nat) (operand : String) : Prop where
  | label (isName : operand ∈ names) : Denotes names width operand
  | number {radix : Radix} {value : Nat} (isNumeral : IsNumeral radix operand.toList value)
      (narrow : value < 256 ^ width) : Denotes names width operand

/-- An operand that names a label, on the line of its statement; the address of the label has `width`
bytes to fit in. -/
structure LabelUse where
  line : Nat
  name : String
  width : Nat
  deriving DecidableEq, Repr

/-- The number of bytes that a statement emits, and the labels that it uses, in order. -/
structure Emission where
  size : Nat
  uses : List LabelUse
  deriving DecidableEq, Repr

def usesOf (names : List String) (line width : Nat) (operands : List String) : List LabelUse :=
  (operands.filter fun operand => names.contains operand).map fun name => { line, name, width }

/-- An instruction or data on a line can be encoded, where `names` are those of all labels.  Data has
a byte for each of its operands.  An instruction has a form with its mnemonic, whose operand tokens
its operands fit one by one. -/
inductive Encodes (names : List String) (line : Nat) (instruction : Instruction) :
    Emission → Prop where
  | data (directive : instruction.mnemonic = dataDirective) (listed : instruction.operands ≠ [])
      (proper : instruction.operands.any isMalformed = false)
      (denotes : ∀ operand ∈ instruction.operands, Denotes names 1 operand) :
      Encodes names line instruction
        { size := instruction.operands.length
          uses := usesOf names line 1 instruction.operands }
  | form {opcode : UInt8} {form : Form} (found : OpcodeTable.standard.form? opcode = some form)
      (named : form.mnemonic = instruction.mnemonic)
      (proper : instruction.operands.any isMalformed = false)
      (fits : List.Forall₂
        (OperandFits (OpcodeTable.standard.literalOperands instruction.mnemonic))
        instruction.operands form.operands)
      (denotes : ∀ operand ∈ immediateOperands
        (OpcodeTable.standard.literalOperands instruction.mnemonic) instruction.operands,
        Denotes names form.width operand) :
      Encodes names line instruction
        { size := form.length
          uses := usesOf names line form.width (immediateOperands
            (OpcodeTable.standard.literalOperands instruction.mnemonic) instruction.operands) }

/-- The labels that a block uses. -/
def Block.uses (block : Block) : List LabelUse :=
  block.references.map fun reference =>
    { line := block.line, name := reference.name, width := reference.width }

/-! ## Values -/

section Values

variable {names : List String} {declared : Declarations}
  (sameNames : ∀ name, name ∈ declared.map Prod.fst ↔ name ∈ names)
  {line : Nat} {operand : String}
include sameNames

theorem isSome_lookup_names (name : String) :
    (declared.lookup name).isSome = true ↔ name ∈ names := by
  rw [isSome_lookup_iff, sameNames]

theorem valueOf_of_mem (isName : operand ∈ names) :
    valueOf declared line operand = .ok (.address operand) := by
  rw [valueOf, if_pos ((isSome_lookup_names sameNames operand).2 isName)]

/-- An operand has its own name for its value, if that is the name of a label, or else its number. -/
theorem valueOf_cases {value : Value} (read : valueOf declared line operand = .ok value) :
    (operand ∈ names ∧ value = .address operand) ∨
      operand ∉ names ∧ ∃ radix number,
        value = .number number ∧ IsNumeral radix operand.toList number := by
  by_cases isName : operand ∈ names
  · rw [valueOf_of_mem sameNames isName] at read
    exact Or.inl ⟨isName, (Except.ok.inj read).symm⟩
  · cases value with
    | number number =>
        obtain ⟨radix, isNumeral⟩ := isNumeral_of_valueOf read
        exact Or.inr ⟨isName, radix, number, rfl, isNumeral⟩
    | address name =>
        rw [valueOf, if_neg (mt (isSome_lookup_names sameNames operand).1 isName)] at read
        split at read
        · cases read
        · cases read
        · split at read
          · cases read
          · cases read

theorem exists_value_of_denotes {width : Nat} (denotes : Denotes names width operand)
    (moderate : ¬ IsOverlong operand) :
    ∃ value, valueOf declared line operand = .ok value ∧
      ∀ number, value = .number number → number < 256 ^ width := by
  by_cases isName : operand ∈ names
  · refine ⟨_, valueOf_of_mem sameNames isName, ?_⟩
    intro number impossible
    cases impossible
  · cases denotes with
    | label impossible => exact absurd impossible isName
    | @number radix value isNumeral narrow =>
        have short : radix = .decimal → operand.toList.length ≤ longestDecimal := by
          intro isDecimal
          by_contra long
          exact moderate ⟨radix, value, isNumeral, Or.inl ⟨isDecimal, Nat.lt_of_not_le long⟩⟩
        refine ⟨.number value, ?_, ?_⟩
        · rw [valueOf, if_neg (mt (isSome_lookup_names sameNames operand).1 isName),
            readLiteral_of_isNumeral isNumeral short]
        · intro number same
          cases same
          exact narrow

theorem denotes_of_valueOf {width : Nat} {value : Value}
    (read : valueOf declared line operand = .ok value)
    (narrow : ∀ number, value = .number number → number < 256 ^ width) :
    Denotes names width operand := by
  rcases valueOf_cases sameNames read with ⟨isName, _⟩ | ⟨_, radix, number, rfl, isNumeral⟩
  · exact .label isName
  · exact .number isNumeral (narrow number rfl)

end Values

/-! ## Data -/

theorem dataValue_of_valueOf {declared : Declarations} {line : Nat} {operand : String} {value : Value}
    (read : valueOf declared line operand = .ok value)
    (narrow : ∀ number, value = .number number → number < 256 ^ 1) :
    dataValue declared line operand = .ok value := by
  rw [dataValue, read]
  cases value with
  | address name => rfl
  | number number => exact if_pos (narrow number rfl)

section Data

variable {names : List String} {declared : Declarations}
  (sameNames : ∀ name, name ∈ declared.map Prod.fst ↔ name ∈ names)
  {line : Nat} {operands : List String} {values : List Value}
  (read : List.Forall₂ (fun operand value => dataValue declared line operand = .ok value)
    operands values)
include sameNames read

/-- The references of data are the operands that name labels, in order. -/
theorem names_of_references (start : Nat) :
    ((values.zipIdx start).filterMap fun (value, position) => value.reference? position).map
        (fun reference => (reference.name, reference.width)) =
      (operands.filter fun operand => names.contains operand).map fun name => (name, 1) := by
  induction read generalizing start with
  | nil => rfl
  | @cons operand value operands values isValue _ inductionHypothesis =>
      rw [List.zipIdx_cons, List.filterMap_cons]
      rcases valueOf_cases sameNames (dataValue_eq_ok isValue).1 with
        ⟨isName, rfl⟩ | ⟨noName, _, number, rfl, _⟩
      · have kept : (operand :: operands).filter (fun operand => names.contains operand) =
            operand :: operands.filter fun operand => names.contains operand := by simp [isName]
        rw [kept, List.map_cons, ← inductionHypothesis (start + 1)]
        rfl
      · have dropped : (operand :: operands).filter (fun operand => names.contains operand) =
            operands.filter fun operand => names.contains operand := by simp [noName]
        rw [dropped, ← inductionHypothesis (start + 1)]
        rfl

theorem uses_dataBlockOf (label : String) {instruction : Instruction}
    (isOperands : instruction.operands = operands) :
    (dataBlockOf line label instruction values).uses =
      usesOf names line 1 instruction.operands := by
  have pairs := congrArg (List.map fun pair : String × Nat => LabelUse.mk line pair.1 pair.2)
    (names_of_references sameNames read 0)
  rw [isOperands]
  simpa [Block.uses, dataBlockOf, usesOf, Function.comp_def] using pairs

end Data

/-! ## Instructions -/

section Instructions

variable {names : List String} {declared : Declarations}
  (sameNames : ∀ name, name ∈ declared.map Prod.fst ↔ name ∈ names)
  {order : ByteOrder} {line : Nat} {operand : String} {value : Value} {width : Nat}
  {immediate : Immediate}

/-- The immediate of a value has its width, and a number that fills it is narrow. -/
theorem length_of_immediateOf (proper : width = 1 ∨ width = 2)
    (filled : immediateOf order line width (some value) = .ok immediate) :
    immediate.bytes.length = width ∧ ∀ number, value = .number number → number < 256 ^ width := by
  cases value with
  | address name =>
      cases filled
      refine ⟨List.length_replicate, ?_⟩
      intro number impossible
      cases impossible
  | number number =>
      have hasBytes : ¬ width = 0 := by omega
      rw [immediateOf, if_neg hasBytes] at filled
      split at filled
      · rename_i narrow
        cases filled
        refine ⟨length_immediateBytes proper, ?_⟩
        intro other same
        cases same
        exact narrow
      · rw [refuseNumber] at filled
        split at filled
        · exact absurd filled refuse_ne_ok
        · cases filled

theorem exists_immediate_of_narrow (order : ByteOrder) (line : Nat) (hasBytes : width ≠ 0)
    (narrow : ∀ number, value = .number number → number < 256 ^ width) :
    ∃ immediate, immediateOf order line width (some value) = .ok immediate := by
  cases value with
  | address name => exact ⟨_, rfl⟩
  | number number =>
      rw [immediateOf, if_neg hasBytes, if_pos (narrow number rfl)]
      exact ⟨_, rfl⟩

include sameNames

theorem uses_codeBlock (label : String) (instruction : Instruction) (opcode : UInt8) (form : Form)
    (read : valueOf declared line operand = .ok value)
    (filled : immediateOf order line form.width (some value) = .ok immediate) :
    (codeBlock line label instruction opcode form immediate).uses =
      usesOf names line form.width [operand] := by
  rcases valueOf_cases sameNames read with ⟨isName, rfl⟩ | ⟨noName, _, number, rfl, _⟩
  · cases filled
    simp [Block.uses, codeBlock, usesOf, isName]
  · rw [immediateOf, refuseNumber] at filled
    have noReferences : immediate.references = [] := by
      split at filled
      · cases filled
        rfl
      · split at filled
        · cases filled
          rfl
        · split at filled
          · exact absurd filled refuse_ne_ok
          · cases filled
    simp [Block.uses, codeBlock, usesOf, noName, noReferences]

end Instructions

/-! ## Statements -/

section Statements

variable {names : List String} {declared : Declarations}
  (sameNames : ∀ name, name ∈ declared.map Prod.fst ↔ name ∈ names)
  {order : ByteOrder} {line before : Nat} {label : String} {instruction : Instruction}
include sameNames

theorem encodes_of_dataBlock {block : Block} (directive : instruction.mnemonic = dataDirective)
    (emitted : dataBlock declared line before label instruction = .ok block) :
    Encodes names line instruction { size := block.bytes.length, uses := block.uses } ∧
      before + block.bytes.length ≤ longestProgram := by
  obtain ⟨listed, proper, fits, values, read, rfl⟩ := dataBlock_eq_ok_iff.1 emitted
  have length : (dataBlockOf line label instruction values).bytes.length =
      instruction.operands.length := by
    rw [dataBlockOf, List.length_map, read.length_eq]
  rw [uses_dataBlockOf sameNames read label rfl, length]
  refine ⟨.data directive listed proper ?_, fits⟩
  intro operand member
  obtain ⟨value, _, isValue⟩ := exists_of_mem_right read.flip member
  obtain ⟨isRead, narrow⟩ := dataValue_eq_ok isValue
  exact denotes_of_valueOf sameNames isRead narrow

theorem encodes_of_instructionBlock {block : Block}
    (emitted : instructionBlock .standard order declared line before label instruction =
      .ok block) :
    Encodes names line instruction { size := block.bytes.length, uses := block.uses } ∧
      before + block.bytes.length ≤ longestProgram := by
  obtain ⟨opcode, form, value, immediate, success, fits, filled, rfl⟩ :=
    instructionBlock_eq_ok_iff.1 emitted
  obtain ⟨found, named, matched, proper, _⟩ := formFor_standard_eq_ok_iff.1 success
  rcases immediate_of_formFor success with
    ⟨noBytes, rfl, nothing⟩ | ⟨wide, operand, number, only, read, rfl⟩
  · rw [immediateOf, if_pos noBytes] at filled
    cases filled
    have length : (codeBlock line label instruction opcode form
        { bytes := [], references := [] }).bytes.length = form.length := by
      rw [Form.length, noBytes]
      rfl
    have uses : (codeBlock line label instruction opcode form
        { bytes := [], references := [] }).uses = usesOf names line form.width (immediateOperands
          (OpcodeTable.standard.literalOperands instruction.mnemonic) instruction.operands) := by
      rw [nothing]
      rfl
    rw [length, uses]
    refine ⟨.form found named proper matched ?_, fits⟩
    intro operand member
    rw [nothing] at member
    exact absurd member List.not_mem_nil
  · obtain ⟨filledBytes, narrow⟩ := length_of_immediateOf wide filled
    have length : (codeBlock line label instruction opcode form immediate).bytes.length =
        form.length := by
      rw [codeBlock, List.length_cons, filledBytes, Form.length, Nat.add_comm]
    rw [length, uses_codeBlock sameNames label instruction opcode form read filled, ← only]
    refine ⟨.form found named proper matched ?_, fits⟩
    intro other member
    rw [only, List.mem_singleton] at member
    subst member
    exact denotes_of_valueOf sameNames read narrow

/-- A statement that has a block can be encoded to as many bytes, and they fit behind those before. -/
theorem encodes_of_blockOf {block : Block}
    (emitted : blockOf .standard order declared line before label instruction = .ok block) :
    Encodes names line instruction { size := block.bytes.length, uses := block.uses } ∧
      before + block.bytes.length ≤ longestProgram := by
  rw [blockOf] at emitted
  split at emitted
  · rename_i directive
    exact encodes_of_dataBlock sameNames (beq_iff_eq.1 directive) emitted
  · exact encodes_of_instructionBlock sameNames emitted

/-- A statement that can be encoded has a block wherever its bytes still fit, if its numerals can be
read. -/
theorem exists_block_of_encodes {emission : Emission}
    (encodes : Encodes names line instruction emission)
    (moderate : ∀ operand ∈ instruction.operands, ¬ IsOverlong operand)
    (fits : before + emission.size ≤ longestProgram) :
    ∃ block, blockOf .standard order declared line before label instruction = .ok block := by
  cases encodes with
  | data directive listed proper denotes =>
      have everyValue : ∀ operand ∈ instruction.operands,
          ∃ value, dataValue declared line operand = .ok value := by
        intro operand member
        obtain ⟨value, read, narrow⟩ := exists_value_of_denotes sameNames
          (denotes operand member) (moderate operand member)
        exact ⟨value, dataValue_of_valueOf read narrow⟩
      obtain ⟨values, read⟩ := exists_mapM_eq_ok everyValue
      refine ⟨dataBlockOf line label instruction values, ?_⟩
      rw [blockOf, directive, beq_self_eq_true, if_pos rfl]
      exact dataBlock_eq_ok_iff.2 ⟨listed, proper, fits, values, mapM_eq_ok_iff.1 read, rfl⟩
  | @form opcode form found named proper matched denotes =>
      have everyValue : ∀ operand ∈ immediateOperands
          (OpcodeTable.standard.literalOperands instruction.mnemonic) instruction.operands,
          ∃ value, valueOf declared line operand = .ok value ∧
            ∀ number, value = .number number → number < 256 ^ form.width := by
        intro operand member
        exact exists_value_of_denotes sameNames (denotes operand member)
          (moderate operand (List.mem_filter.1 member).1)
      obtain ⟨values, read⟩ := exists_mapM_eq_ok fun operand member =>
        (everyValue operand member).imp fun value => And.left
      have success := formFor_standard_eq_ok_iff.2
        ⟨found, named, matched, proper, values, read, rfl⟩
      have notData : ¬ (instruction.mnemonic == dataDirective) = true := by
        rw [beq_iff_eq, ← named]
        exact Form.mnemonic_ne_dataDirective (Form.isRegular_of_standard found)
      obtain ⟨immediate, filled⟩ : ∃ immediate,
          immediateOf order line form.width values.getLast? = .ok immediate := by
        rcases immediate_of_formFor success with
          ⟨noBytes, nothing, _⟩ | ⟨wide, operand, number, only, isNumber, last⟩
        · rw [nothing, immediateOf, if_pos noBytes]
          exact ⟨_, rfl⟩
        · have member : operand ∈ immediateOperands
              (OpcodeTable.standard.literalOperands instruction.mnemonic)
              instruction.operands := by
            rw [only]
            exact List.mem_cons_self
          obtain ⟨value, isValue, narrow⟩ := everyValue operand member
          cases Except.ok.inj (isNumber.symm.trans isValue)
          rw [last]
          exact exists_immediate_of_narrow order line (by omega) narrow
      refine ⟨codeBlock line label instruction opcode form immediate, ?_⟩
      rw [blockOf, if_neg notData]
      exact instructionBlock_eq_ok_iff.2
        ⟨opcode, form, _, immediate, success, fits, filled, rfl⟩

end Statements

/-! ## Uniqueness -/

/-- A statement is encoded in one way only. -/
theorem encodes_unique {names : List String} {line : Nat} {instruction : Instruction}
    {first second : Emission} (encodes : Encodes names line instruction first)
    (encodesToo : Encodes names line instruction second) : first = second := by
  have noFormOfData : ∀ {opcode : UInt8} {form : Form},
      OpcodeTable.standard.form? opcode = some form →
        form.mnemonic = instruction.mnemonic → instruction.mnemonic ≠ dataDirective := by
    intro opcode form found named directive
    exact Form.mnemonic_ne_dataDirective (Form.isRegular_of_standard found)
      (named.trans directive)
  cases encodes with
  | data directive _ _ _ =>
      cases encodesToo with
      | data _ _ _ _ => rfl
      | form found named _ _ _ => exact absurd directive (noFormOfData found named)
  | @form opcode form found named proper matched _ =>
      cases encodesToo with
      | data directive _ _ _ => exact absurd directive (noFormOfData found named)
      | @form otherOpcode otherForm otherFound otherNamed _ otherMatched _ =>
          have regular := Form.isRegular_of_standard found
          have plain := Form.isPlainToken_mnemonic regular
          have noPlaceholder := Form.isPlaceholder_mnemonic regular
          rw [named] at plain noPlaceholder
          -- both forms are what the table finds for the mnemonic and the operands
          have encoded := (encode_standard_iff plain noPlaceholder found).2 ⟨named, matched⟩
          have otherEncoded := (encode_standard_iff plain noPlaceholder otherFound).2
            ⟨otherNamed, otherMatched⟩
          have sameOpcode := Option.some.inj (encoded.symm.trans otherEncoded)
          subst sameOpcode
          rw [found] at otherFound
          cases otherFound
          rfl

end Intel8085.Assembly
