import Intel8085.Proofs.Assembly.Images

/-!
# Errors about labels

Labels are refused by the first pass only: whatever the table, laying out statements and linking
them fail for reasons of other kinds (`sparesLabels_layoutOf`, `sparesLabels_link`).  So an error
about a label says that its declaration is wrong, and a text that gets past the first pass is never
refused for one.
-/

set_option autoImplicit false

namespace Intel8085.Assembly

open Intel8085.Source

def ErrorKind.isAboutLabel : ErrorKind → Bool
  | .invalidLabel => true
  | .reservedLabel => true
  | .duplicateLabel => true
  | _ => false

/-- The result is no refusal of a label. -/
def SparesLabels {Result : Type} (result : Except Failure Result) : Prop :=
  ∀ error, result = .error (.refused error) → error.cause.kind.isAboutLabel = false

section Results

variable {First Second : Type}

theorem sparesLabels_ok (value : First) : SparesLabels (.ok value) := by
  intro error impossible
  cases impossible

theorem sparesLabels_error {failure : Failure} (unrefused : ∀ error, failure ≠ .refused error) :
    SparesLabels (.error failure : Except Failure First) := by
  intro error refused
  exact absurd (Except.error.inj refused) (unrefused error)

theorem sparesLabels_refuse {cause : Cause} (other : cause.kind.isAboutLabel = false) (line : Nat) :
    SparesLabels (refuse line cause : Except Failure First) := by
  intro error refused
  cases refused
  exact other

theorem sparesLabels_refuseNumber {cause : Cause} (other : cause.kind.isAboutLabel = false)
    (line value : Nat) : SparesLabels (refuseNumber line value cause : Except Failure First) := by
  rw [refuseNumber]
  split
  · exact sparesLabels_refuse other line
  · exact sparesLabels_error (by simp)

theorem SparesLabels.bind {first : Except Failure First} {next : First → Except Failure Second}
    (spares : SparesLabels first) (nextSpares : ∀ value, SparesLabels (next value)) :
    SparesLabels (first >>= next) := by
  intro error refused
  rcases bind_eq_error_iff.1 refused with early | ⟨value, _, late⟩
  · exact spares error early
  · exact nextSpares value error late

theorem sparesLabels_mapM {function : First → Except Failure Second}
    (spares : ∀ item, SparesLabels (function item)) (items : List First) :
    SparesLabels (items.mapM function) := by
  intro error refused
  obtain ⟨item, _, fails⟩ := exists_of_mapM_eq_error refused
  exact spares item error fails

theorem sparesLabels_foldlM {step : Second → First → Except Failure Second}
    (spares : ∀ state item, SparesLabels (step state item)) (items : List First) (state : Second) :
    SparesLabels (items.foldlM step state) := by
  intro error refused
  obtain ⟨item, _, reached, fails⟩ := exists_of_foldlM_eq_error refused
  exact spares reached item error fails

end Results

/-! ## Blocks -/

section Blocks

variable (table : OpcodeTable) (order : ByteOrder) (declared : Declarations) (line before : Nat)
  (label : String) (instruction : Instruction)

theorem sparesLabels_valueOf (operand : String) : SparesLabels (valueOf declared line operand) := by
  rw [valueOf]
  split
  · exact sparesLabels_ok _
  · split
    · exact sparesLabels_ok _
    · exact sparesLabels_error (by simp)
    · split
      · exact sparesLabels_refuse rfl line
      · exact sparesLabels_refuse rfl line

theorem sparesLabels_checkOperands (operands : List String) :
    SparesLabels (checkOperands line operands) := by
  rw [checkOperands]
  split
  · exact sparesLabels_refuse rfl line
  · exact sparesLabels_ok _

theorem sparesLabels_classify (literals : List String) (classified : Classified)
    (operand : String) : SparesLabels (classify declared line literals classified operand) := by
  rw [classify]
  split
  · exact sparesLabels_ok _
  · exact (sparesLabels_valueOf declared line operand).bind fun _ => sparesLabels_ok _

theorem sparesLabels_formFor : SparesLabels (formFor table declared line instruction) := by
  have classifies := sparesLabels_foldlM
    (sparesLabels_classify declared line (table.literalOperands instruction.mnemonic))
    instruction.operands { tokens := [], value := none }
  unfold formFor
  simp only
  split
  · exact sparesLabels_refuse rfl line
  · refine (sparesLabels_checkOperands line instruction.operands).bind fun _ =>
      classifies.bind fun classified => ?_
    split
    · exact sparesLabels_refuse rfl line
    · split
      · exact sparesLabels_refuse rfl line
      · exact sparesLabels_ok _

theorem sparesLabels_immediateOf (width : Nat) (value : Option Value) :
    SparesLabels (immediateOf order line width value) := by
  rw [immediateOf.eq_def]
  split
  · exact sparesLabels_ok _
  · split
    · exact sparesLabels_ok _
    · split
      · exact sparesLabels_ok _
      · exact sparesLabels_refuseNumber rfl line _
  · split
    · exact sparesLabels_ok _
    · exact sparesLabels_error (by simp)

theorem sparesLabels_instructionBlock :
    SparesLabels (instructionBlock table order declared line before label instruction) := by
  unfold instructionBlock
  refine (sparesLabels_formFor table declared line instruction).bind ?_
  rintro ⟨opcode, form, value⟩
  simp only
  split
  · exact sparesLabels_refuse rfl line
  · exact (sparesLabels_immediateOf order line form.width value).bind fun _ => sparesLabels_ok _

theorem sparesLabels_dataValue (operand : String) :
    SparesLabels (dataValue declared line operand) := by
  rw [dataValue]
  refine (sparesLabels_valueOf declared line operand).bind fun value => ?_
  cases value with
  | address name => exact sparesLabels_ok _
  | number number =>
      simp only
      split
      · exact sparesLabels_ok _
      · exact sparesLabels_refuseNumber rfl line number

theorem sparesLabels_dataBlock : SparesLabels (dataBlock declared line before label instruction) := by
  have reads := sparesLabels_mapM (sparesLabels_dataValue declared line) instruction.operands
  unfold dataBlock
  simp only
  split
  · exact sparesLabels_refuse rfl line
  · refine (sparesLabels_checkOperands line instruction.operands).bind fun _ => ?_
    split
    · exact sparesLabels_refuse rfl line
    · exact reads.bind fun _ => sparesLabels_ok _

theorem sparesLabels_blockOf :
    SparesLabels (blockOf table order declared line before label instruction) := by
  rw [blockOf]
  split
  · exact sparesLabels_dataBlock declared line before label instruction
  · exact sparesLabels_instructionBlock table order declared line before label instruction

end Blocks

/-! ## Passes -/

theorem sparesLabels_lay (table : OpcodeTable) (order : ByteOrder) (declared : Declarations)
    (layout : Layout) (numbered : NumberedStatement) :
    SparesLabels (lay table order declared layout numbered) := by
  unfold lay
  simp only
  split
  · exact sparesLabels_ok _
  · exact (sparesLabels_blockOf _ _ _ _ _ _ _).bind fun _ => sparesLabels_ok _

theorem sparesLabels_layoutOf (table : OpcodeTable) (order : ByteOrder) (declared : Declarations)
    (numbered : List NumberedStatement) :
    SparesLabels (layoutOf table order declared numbered) :=
  sparesLabels_foldlM (sparesLabels_lay table order declared) numbered _

theorem sparesLabels_overwriteCode (code : Array UInt8) (position : Nat) (bytes : List UInt8) :
    SparesLabels (overwriteCode code position bytes) := by
  intro error refused
  cases eq_of_overwriteCode_eq_error refused

theorem sparesLabels_addressBytes (order : ByteOrder) (labels : List (String × Nat)) (line : Nat)
    (reference : Reference) : SparesLabels (addressBytes order labels line reference) := by
  rw [addressBytes]
  split
  · exact sparesLabels_refuse rfl _
  · split
    · exact sparesLabels_ok _
    · exact sparesLabels_refuse rfl _

theorem sparesLabels_patchCode (order : ByteOrder) (labels : List (String × Nat))
    (placed : PlacedBlock) (code : Array UInt8) (reference : Reference) :
    SparesLabels (patchCode order labels placed code reference) :=
  (sparesLabels_addressBytes order labels _ reference).bind fun _ =>
    sparesLabels_overwriteCode _ _ _

theorem sparesLabels_link (order : ByteOrder) (layout : Layout) :
    SparesLabels (link order layout) := by
  have patches := fun (labels : List (String × Nat)) (code : Array UInt8) (placed : PlacedBlock) =>
    sparesLabels_foldlM (sparesLabels_patchCode order labels placed) placed.block.references code
  rw [link_eq]
  exact (sparesLabels_foldlM (patches _) _ _).bind fun _ => sparesLabels_ok _

end Intel8085.Assembly
