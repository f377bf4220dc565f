import Intel8085.Proofs.Assembly.Classification
import Intel8085.Proofs.Assembly.Linking

/-!
# The bytes of a statement

A statement has a block exactly when its operands have values and the block still fits
(`instructionBlock_eq_ok_iff`, `dataBlock_eq_ok_iff`).  Once the addresses of labels are put in, an
instruction is its opcode with the value of its immediate behind it (`linked_codeBlock`), and data is
the values of its operands (`linked_dataBlockOf`).
-/

set_option autoImplicit false

namespace Intel8085.Assembly

open Intel8085.Text Intel8085.Source

/-- The number that a value stands for once labels have addresses. -/
def Value.resolve (labels : List (String × Nat)) : Value → Nat
  | .number value => value
  | .address name => addressOf labels name

/-! ## Instructions -/

/-- The block of an instruction with a form and an immediate. -/
def codeBlock (line : Nat) (label : String) (instruction : Instruction) (opcode : UInt8) (form : Form)
    (immediate : Immediate) : Block where
  line := line
  label := label
  text := instructionText instruction
  size := form.length
  cycles := form.cycles
  states := form.states
  bytes := opcode :: immediate.bytes
  references := immediate.references

theorem instructionBlock_eq_ok_iff {table : OpcodeTable} {order : ByteOrder} {declared : Declarations}
    {line before : Nat} {label : String} {instruction : Instruction} {block : Block} :
    instructionBlock table order declared line before label instruction = .ok block ↔
      ∃ opcode form value immediate,
        formFor table declared line instruction = .ok (opcode, form, value) ∧
        before + form.length ≤ longestProgram ∧
        immediateOf order line form.width value = .ok immediate ∧
        block = codeBlock line label instruction opcode form immediate := by
  unfold instructionBlock
  simp only [bind_eq_ok_iff, ite_refuse_eq_ok_iff, pure_eq_ok_iff, Prod.exists, Nat.not_lt]
  constructor
  · rintro ⟨opcode, form, value, found, fits, immediate, filled, rfl⟩
    exact ⟨opcode, form, value, immediate, found, fits, filled, rfl⟩
  · rintro ⟨opcode, form, value, immediate, found, fits, filled, rfl⟩
    exact ⟨opcode, form, value, found, fits, immediate, filled, rfl⟩

theorem instructionBlock_of_too_long {table : OpcodeTable} {order : ByteOrder}
    {declared : Declarations} {line before : Nat} {label : String} {instruction : Instruction}
    {opcode : UInt8} {form : Form} {value : Option Value}
    (found : formFor table declared line instruction = .ok (opcode, form, value))
    (tooLong : longestProgram < before + form.length) :
    instructionBlock table order declared line before label instruction =
      refuse line .programTooLong := by
  rw [instructionBlock, found]
  change (if longestProgram < before + form.length then
    refuse line .programTooLong >>= _ else _) = _
  rw [if_pos tooLong]
  rfl

theorem instructionBlock_of_unfilled {table : OpcodeTable} {order : ByteOrder}
    {declared : Declarations} {line before : Nat} {label : String} {instruction : Instruction}
    {opcode : UInt8} {form : Form} {value : Option Value} {failure : Failure}
    (found : formFor table declared line instruction = .ok (opcode, form, value))
    (fits : before + form.length ≤ longestProgram)
    (unfilled : immediateOf order line form.width value = .error failure) :
    instructionBlock table order declared line before label instruction = .error failure := by
  rw [instructionBlock, found]
  change (if longestProgram < before + form.length then
    refuse line .programTooLong >>= _ else _) = _
  rw [if_neg (Nat.not_lt.2 fits), unfilled]
  rfl

/-- With its reference resolved the block is the opcode and the value of the immediate, which fits. -/
theorem linked_codeBlock {order : ByteOrder} {line : Nat} {label : String} {instruction : Instruction}
    {opcode : UInt8} {form : Form} {value : Value} {immediate : Immediate}
    {labels : List (String × Nat)} (proper : form.width = 1 ∨ form.width = 2)
    (filled : immediateOf order line form.width (some value) = .ok immediate)
    (resolvable : ∀ reference ∈ immediate.references, Resolvable labels reference) :
    value.resolve labels < 256 ^ form.width ∧
      (codeBlock line label instruction opcode form immediate).linked order labels =
        opcode :: immediateBytes order form.width (value.resolve labels) := by
  cases value with
  | number number =>
      have hasBytes : ¬ form.width = 0 := by omega
      rw [immediateOf, if_neg hasBytes] at filled
      by_cases narrow : number < 256 ^ form.width
      · rw [if_pos narrow] at filled
        cases filled
        exact ⟨narrow, rfl⟩
      · rw [if_neg narrow, refuseNumber] at filled
        split at filled
        · exact absurd filled refuse_ne_ok
        · cases filled
  | address name =>
      cases filled
      obtain ⟨address, found, narrow⟩ := resolvable _ List.mem_cons_self
      have same : Value.resolve labels (.address name) = address := by
        rw [Value.resolve, addressOf, found]
        rfl
      have length : (immediateBytes order form.width
          (Value.resolve labels (.address name))).length = form.width :=
        length_immediateBytes proper
      have noBytesLeft : (opcode :: List.replicate form.width (0 : UInt8)).drop
          (1 + form.width) = [] := by
        apply List.drop_eq_nil_of_le
        simp only [List.length_cons, List.length_replicate]
        omega
      refine ⟨by rw [same]; exact narrow, ?_⟩
      change spliced (opcode :: List.replicate form.width 0) 1
        (immediateBytes order form.width (Value.resolve labels (.address name))) = _
      rw [spliced, length, noBytesLeft, List.append_nil]
      rfl

theorem isSound_codeBlock {order : ByteOrder} {line : Nat} {label : String}
    {instruction : Instruction} {opcode : UInt8} {form : Form} {value : Option Value}
    {immediate : Immediate}
    (proper : form.width = 0 ∧ value = none ∨ form.width = 1 ∨ form.width = 2)
    (filled : immediateOf order line form.width value = .ok immediate) :
    (codeBlock line label instruction opcode form immediate).IsSound := by
  intro reference member
  rcases value with _ | number | name
  · rw [immediateOf] at filled
    split at filled
    · cases filled
      exact absurd member List.not_mem_nil
    · cases filled
  · rw [immediateOf, refuseNumber] at filled
    split at filled
    · cases filled
      exact absurd member List.not_mem_nil
    · split at filled
      · cases filled
        exact absurd member List.not_mem_nil
      · split at filled
        · exact absurd filled refuse_ne_ok
        · cases filled
  · cases filled
    cases List.mem_singleton.1 member
    rcases proper with ⟨_, impossible⟩ | hasBytes
    · cases impossible
    · refine ⟨hasBytes, ?_⟩
      change 1 + form.width ≤ (opcode :: List.replicate form.width (0 : UInt8)).length
      simp only [List.length_cons, List.length_replicate]
      omega

/-! ## Data -/

/-- The block of a data directive with the values of its operands. -/
def dataBlockOf (line : Nat) (label : String) (instruction : Instruction) (values : List Value) :
    Block where
  line := line
  label := label
  text := instructionText instruction
  size := values.length
  cycles := 0
  states := 0
  bytes := values.map Value.byte
  references := values.zipIdx.filterMap fun (value, position) => value.reference? position

theorem dataBlock_eq_ok_iff {declared : Declarations} {line before : Nat} {label : String}
    {instruction : Instruction} {block : Block} :
    dataBlock declared line before label instruction = .ok block ↔
      instruction.operands ≠ [] ∧ instruction.operands.any isMalformed = false ∧
        before + instruction.operands.length ≤ longestProgram ∧
        ∃ values,
          List.Forall₂ (fun operand value => dataValue declared line operand = .ok value)
            instruction.operands values ∧
          block = dataBlockOf line label instruction values := by
  unfold dataBlock
  simp only [ite_refuse_eq_ok_iff, bind_eq_ok_iff, pure_eq_ok_iff, checkOperands_eq_ok_iff,
    mapM_eq_ok_iff, Nat.not_lt, List.isEmpty_iff]
  constructor
  · rintro ⟨some, _, proper, fits, values, read, rfl⟩
    exact ⟨some, proper, fits, values, read, rfl⟩
  · rintro ⟨some, proper, fits, values, read, rfl⟩
    exact ⟨some, (), proper, fits, values, read, rfl⟩

theorem dataBlock_of_too_long {declared : Declarations} {line before : Nat} {label : String}
    {instruction : Instruction} (listed : instruction.operands ≠ [])
    (proper : instruction.operands.any isMalformed = false)
    (tooLong : longestProgram < before + instruction.operands.length) :
    dataBlock declared line before label instruction = refuse line .programTooLong := by
  have notEmpty : ¬ instruction.operands.isEmpty = true := by simpa using listed
  have checked : checkOperands line instruction.operands = .ok () := checkOperands_eq_ok_iff.2 proper
  unfold dataBlock
  rw [if_neg notEmpty, checked]
  change (if longestProgram < before + instruction.operands.length then
    refuse line .programTooLong >>= _ else _) = _
  rw [if_pos tooLong]
  rfl

/-- The byte of a data operand once addresses are known. -/
def Value.resolvedByte (labels : List (String × Nat)) (value : Value) : UInt8 :=
  UInt8.ofNat (value.resolve labels)

theorem resolved_values (order : ByteOrder) (labels : List (String × Nat)) (front : List UInt8)
    (values : List Value) :
    resolved order labels
        ((values.zipIdx front.length).filterMap fun (value, position) => value.reference? position)
        (front ++ values.map Value.byte) =
      front ++ values.map (Value.resolvedByte labels) := by
  -- references count positions from the front of the block, so the bytes already right stay there
  induction values generalizing front with
  | nil => rfl
  | cons value rest inductionHypothesis =>
      have longer : ∀ byte : UInt8, front.length + 1 = (front ++ [byte]).length := by
        intro byte
        rw [List.length_append, List.length_singleton]
      rw [List.zipIdx_cons, List.map_cons, List.map_cons]
      cases value with
      | number number =>
          have step := inductionHypothesis (front ++ [UInt8.ofNat number])
          rw [← longer, List.append_assoc, List.append_assoc] at step
          exact step
      | address name =>
          have step := inductionHypothesis (front ++ [UInt8.ofNat (addressOf labels name)])
          rw [← longer, List.append_assoc, List.append_assoc] at step
          have first : spliced (front ++ 0 :: rest.map Value.byte) front.length
              [UInt8.ofNat (addressOf labels name)] =
                front ++ UInt8.ofNat (addressOf labels name) :: rest.map Value.byte := by
            simp [spliced]
          change resolved order labels
            ({ position := front.length, name, width := 1 } ::
              (rest.zipIdx (front.length + 1)).filterMap fun (value, position) =>
                value.reference? position)
            (front ++ 0 :: rest.map Value.byte) = _
          rw [resolved, List.foldl_cons]
          change resolved order labels _ (spliced (front ++ 0 :: rest.map Value.byte) front.length
            [UInt8.ofNat (addressOf labels name)]) = _
          rw [first]
          exact step

theorem linked_dataBlockOf (order : ByteOrder) (labels : List (String × Nat)) (line : Nat)
    (label : String) (instruction : Instruction) (values : List Value) :
    (dataBlockOf line label instruction values).linked order labels =
      values.map (Value.resolvedByte labels) :=
  resolved_values order labels [] values

theorem isSound_dataBlockOf (line : Nat) (label : String) (instruction : Instruction)
    (values : List Value) : (dataBlockOf line label instruction values).IsSound := by
  intro reference member
  obtain ⟨⟨value, position⟩, listed, isReference⟩ := List.mem_filterMap.1 member
  have below : position < values.length := by
    have bounds := List.mem_zipIdx listed
    omega
  cases value with
  | number number => cases isReference
  | address name =>
      cases isReference
      refine ⟨Or.inl rfl, ?_⟩
      change position + 1 ≤ (values.map Value.byte).length
      rw [List.length_map]
      exact below

/-- Data of numbers alone is their bytes. -/
theorem dataBlockOf_numbers (line : Nat) (label : String) (instruction : Instruction)
    (numbers : List Nat) :
    (dataBlockOf line label instruction (numbers.map Value.number)).bytes =
        numbers.map UInt8.ofNat ∧
      (dataBlockOf line label instruction (numbers.map Value.number)).references = [] := by
  constructor
  · rw [dataBlockOf, List.map_map]
    rfl
  · rw [dataBlockOf, List.zipIdx_map, List.filterMap_map, List.filterMap_eq_nil_iff]
    intro position _
    rfl

theorem dataValue_eq_ok {declared : Declarations} {line : Nat} {operand : String} {value : Value}
    (read : dataValue declared line operand = .ok value) :
    valueOf declared line operand = .ok value ∧ ∀ number, value = .number number → number < 256 := by
  rw [dataValue, bind_eq_ok_iff] at read
  obtain ⟨found, isValue, checked⟩ := read
  cases found with
  | address name =>
      cases pure_eq_ok_iff.1 checked
      refine ⟨isValue, ?_⟩
      intro number impossible
      cases impossible
  | number number =>
      simp only at checked
      by_cases narrow : number < 256
      · rw [if_pos narrow] at checked
        cases pure_eq_ok_iff.1 checked
        refine ⟨isValue, ?_⟩
        intro other same
        cases same
        exact narrow
      · rw [if_neg narrow, refuseNumber] at checked
        split at checked
        · exact absurd checked refuse_ne_ok
        · cases checked

/-- The address of a label that a data block names fits in a byte. -/
theorem resolve_address_lt {labels : List (String × Nat)} {line : Nat} {label : String}
    {instruction : Instruction} {values : List Value}
    (resolvable : ∀ reference ∈ (dataBlockOf line label instruction values).references,
      Resolvable labels reference) {name : String} (member : Value.address name ∈ values) :
    Value.resolve labels (.address name) < 256 := by
  obtain ⟨position, below, isValue⟩ := List.mem_iff_getElem.1 member
  have listed : (Value.address name, position) ∈ values.zipIdx := by
    rw [List.mem_zipIdx_iff_getElem?, List.getElem?_eq_getElem below, isValue]
  obtain ⟨address, found, narrow⟩ := resolvable { position, name, width := 1 }
    (List.mem_filterMap.2 ⟨_, listed, rfl⟩)
  have same : Value.resolve labels (.address name) = address := by
    rw [Value.resolve, addressOf, found]
    rfl
  rw [same]
  exact narrow

/-- The value of a data operand fits in a byte, as a number or as the address of its label. -/
theorem resolve_lt_of_dataValue {declared : Declarations} {labels : List (String × Nat)} {line : Nat}
    {label : String} {instruction : Instruction} {values : List Value} {operand : String}
    {value : Value}
    (resolvable : ∀ reference ∈ (dataBlockOf line label instruction values).references,
      Resolvable labels reference)
    (member : value ∈ values) (read : dataValue declared line operand = .ok value) :
    value.resolve labels < 256 := by
  cases value with
  | number number => exact (dataValue_eq_ok read).2 number rfl
  | address name => exact resolve_address_lt resolvable member

/-! ## Statements -/

theorem blockOf_of_data {table : OpcodeTable} {order : ByteOrder} {declared : Declarations}
    {line before : Nat} {label : String} {instruction : Instruction}
    (isData : instruction.mnemonic = dataDirective) :
    blockOf table order declared line before label instruction =
      dataBlock declared line before label instruction :=
  if_pos (beq_iff_eq.2 isData)

theorem blockOf_of_no_data {table : OpcodeTable} {order : ByteOrder} {declared : Declarations}
    {line before : Nat} {label : String} {instruction : Instruction}
    (noData : instruction.mnemonic ≠ dataDirective) :
    blockOf table order declared line before label instruction =
      instructionBlock table order declared line before label instruction :=
  if_neg fun same => noData (beq_iff_eq.1 same)

theorem line_and_text_of_blockOf {table : OpcodeTable} {order : ByteOrder} {declared : Declarations}
    {line before : Nat} {label : String} {instruction : Instruction} {block : Block}
    (emitted : blockOf table order declared line before label instruction = .ok block) :
    block.line = line ∧ block.text = instructionText instruction := by
  rw [blockOf] at emitted
  split at emitted
  · obtain ⟨_, _, _, _, _, rfl⟩ := dataBlock_eq_ok_iff.1 emitted
    exact ⟨rfl, rfl⟩
  · obtain ⟨_, _, _, _, _, _, _, rfl⟩ := instructionBlock_eq_ok_iff.1 emitted
    exact ⟨rfl, rfl⟩

theorem isSound_blockOf {order : ByteOrder} {declared : Declarations} {line before : Nat}
    {label : String} {instruction : Instruction} {block : Block}
    (emitted : blockOf .standard order declared line before label instruction = .ok block) :
    block.IsSound := by
  rw [blockOf] at emitted
  split at emitted
  · obtain ⟨_, _, _, values, _, rfl⟩ := dataBlock_eq_ok_iff.1 emitted
    exact isSound_dataBlockOf line label instruction values
  · obtain ⟨opcode, form, value, immediate, found, _, filled, rfl⟩ :=
      instructionBlock_eq_ok_iff.1 emitted
    apply isSound_codeBlock _ filled
    rcases immediate_of_formFor found with ⟨width, noValue, _⟩ | ⟨proper, _⟩
    · exact Or.inl ⟨width, noValue⟩
    · exact Or.inr proper

end Intel8085.Assembly
