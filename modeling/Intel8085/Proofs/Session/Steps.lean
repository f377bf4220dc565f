import Intel8085.Proofs.InstructionSet.StandardForms
import Intel8085.Proofs.Session.Faults

/-!
# Steps with the standard table

No pattern of the standard table has a defect, so a step always comes out (`step_standard_cases`):
it meets a fault and changes only the last error and the halt, or it counts one step and keeps the
last error.
-/

set_option autoImplicit false

namespace Intel8085

/-! ## Operations without defects -/

/-- The operation has no defect, and an immediate if it needs one. -/
def Operation.isSound (immediate : Bool) : Operation → Bool
  | .moveImmediate _ => immediate
  | .loadPair _ => immediate
  | .loadAccumulator => immediate
  | .storeAccumulator => immediate
  | .loadHL => immediate
  | .storeHL => immediate
  | .accumulate _ .immediate => immediate
  | .jump _ => immediate
  | .call _ => immediate
  | .input => immediate
  | .output => immediate
  | .defective _ => false
  | .pullThenFail _ => false
  | .pushThenFail _ => false
  | _ => true

namespace Context

variable (context : Context)

theorem isWhole_proceed (after : Machine) : (context.proceed after).ending.isWhole = true := rfl

theorem isWhole_transfer (hasImmediate : context.immediate.isSome = true) (after : Machine) :
    (context.transfer after).ending.isWhole = true := by
  obtain ⟨value, isValue⟩ := Option.isSome_iff_exists.1 hasImmediate
  rw [transfer, isValue]
  rfl

theorem isWhole_withImmediate (hasImmediate : context.immediate.isSome = true) (machine : Machine)
    (operation : UInt16 → Machine) :
    (context.withImmediate machine operation).ending.isWhole = true := by
  obtain ⟨value, isValue⟩ := Option.isSome_iff_exists.1 hasImmediate
  rw [withImmediate, isValue]
  rfl

theorem isWhole_ifModelled (machine : Machine) {effect : Effect}
    (whole : effect.ending.isWhole = true) :
    (context.ifModelled machine effect).ending.isWhole = true := by
  rw [ifModelled]
  split
  · exact whole
  · rfl

theorem isWhole_withPort (hasImmediate : context.immediate.isSome = true) (machine : Machine)
    (operation : UInt8 → Machine) :
    (context.withPort machine operation).ending.isWhole = true := by
  obtain ⟨value, isValue⟩ := Option.isSome_iff_exists.1 hasImmediate
  apply context.isWhole_ifModelled machine
  cases named : Ports.port value.toNat with
  | ok port =>
      simp only [isValue, named]
      rfl
  | error fault =>
      simp only [isValue, named]
      rfl

theorem isWhole_onCondition (machine : Machine) (condition : Option Condition) {effect : Effect}
    (whole : effect.ending.isWhole = true) :
    (context.onCondition machine condition effect).ending.isWhole = true := by
  rw [onCondition]
  split
  · exact whole
  · rfl

end Context

theorem isWhole_execute {operation : Operation} {context : Context}
    (sound : operation.isSound context.immediate.isSome = true) (machine : Machine) :
    (operation.execute context machine).ending.isWhole = true := by
  cases operation with
  | moveImmediate destination => exact context.isWhole_withImmediate sound machine _
  | loadPair pair => exact context.isWhole_withImmediate sound machine _
  | loadAccumulator => exact context.isWhole_withImmediate sound machine _
  | storeAccumulator => exact context.isWhole_withImmediate sound machine _
  | loadHL => exact context.isWhole_withImmediate sound machine _
  | storeHL => exact context.isWhole_withImmediate sound machine _
  | accumulate byteOperation operand =>
      cases operand with
      | location location => rfl
      | immediate =>
          obtain ⟨value, isValue⟩ := Option.isSome_iff_exists.1 sound
          simp only [Operation.execute, isValue]
          exact context.isWhole_proceed _
  | decimalAdjust => exact context.isWhole_ifModelled machine (context.isWhole_proceed _)
  | jump condition =>
      exact context.isWhole_onCondition machine condition (context.isWhole_transfer sound machine)
  | call condition =>
      exact context.isWhole_onCondition machine condition (context.isWhole_transfer sound _)
  | ret condition => exact context.isWhole_onCondition machine condition rfl
  | input => exact context.isWhole_withPort sound machine _
  | output => exact context.isWhole_withPort sound machine _
  | defective defect => exact absurd sound (by simp [Operation.isSound])
  | pullThenFail defect => exact absurd sound (by simp [Operation.isSound])
  | pushThenFail defect => exact absurd sound (by simp [Operation.isSound])
  | _ => rfl

theorem sound_checked :
    (List.range 256).all (fun opcode => (Standard.formOf opcode).all
      fun form => form.operation.isSound (hasImmediate form.operands)) = true := by
  decide +kernel

theorem isSound_of_standard {opcode : UInt8} {form : Form}
    (found : OpcodeTable.standard.form? opcode = some form) :
    form.operation.isSound (hasImmediate form.operands) = true :=
  OpcodeTable.standard_forall sound_checked found

/-! ## Attempts and steps -/

theorem isSome_immediate {memory : Memory} {order : ByteOrder} {address : UInt16} {width : Nat}
    {immediate : Option UInt16} (fetches : memory.immediate order address width = .ok immediate) :
    immediate.isSome = (width == 1 || width == 2) := by
  unfold Memory.immediate at fetches
  split at fetches
  · obtain ⟨_, _, rest⟩ := bind_eq_ok_iff.1 fetches
    cases pure_eq_ok_iff.1 rest
    rfl
  · obtain ⟨_, _, rest⟩ := bind_eq_ok_iff.1 fetches
    obtain ⟨_, _, last⟩ := bind_eq_ok_iff.1 rest
    cases pure_eq_ok_iff.1 last
    rfl
  · rename_i notByte notWord
    cases fetches
    simpa using ⟨notByte, notWord⟩

/-- What is fetched with the standard table has no more than two immediate bytes, and its operation
is sound. -/
theorem fetch_standard {memory : Memory} {config : Config} {address : UInt16} {fetched : Fetched}
    (fetches : memory.fetch { table := .standard, config } address = .ok fetched) :
    fetched.form.width ≤ 2 ∧ fetched.form.operation.isSound fetched.immediate.isSome = true := by
  unfold Memory.fetch at fetches
  simp only at fetches
  split at fetches
  · cases fetches
  · rename_i form found
    obtain ⟨immediate, read, isFetched⟩ := bind_eq_ok_iff.1 fetches
    cases pure_eq_ok_iff.1 isFetched
    refine ⟨Form.width_le_two (Form.isRegular_of_standard found), ?_⟩
    have same : immediate.isSome = hasImmediate form.operands := by
      rw [isSome_immediate read, hasImmediate, ← form.width_eq]
    rw [same]
    exact isSound_of_standard found

namespace Session

theorem isFaultReason_stopReason (fault : Fault) : isFaultReason fault.stopReason = true := by
  cases fault with
  | unknownOpcode _ _ => rfl
  | unsupportedInstruction _ _ => rfl
  | addressOutOfBounds _ => rfl
  | portOutOfBounds _ => rfl
  | invalidRegister _ => rfl
  | valueOutOfRange _ _ => rfl
  | flagBitOutOfBounds _ => rfl

/-- An attempt with the standard table meets a fault and changes nothing, or it is completed and
advances. -/
theorem attempt_standard_cases (config : Config) (session : Session) :
    (∃ fault, session.attempt { table := .standard, config } = (session, .fault fault)) ∨
      ∃ after stop, session.attempt { table := .standard, config } = (after, .completed stop) ∧
        stop.any isFaultReason = false ∧ session.Advances after := by
  cases fetches : session.machine.memory.fetch { table := .standard, config }
      session.programCounter with
  | error fault => exact Or.inl ⟨fault, attempt_of_not_fetched fetches⟩
  | ok fetched =>
      obtain ⟨narrow, sound⟩ := fetch_standard fetches
      have whole : (fetched.form.operation.execute
          (session.context { table := .standard, config } fetched)
            session.machine).ending.isWhole = true :=
        isWhole_execute sound session.machine
      rcases attempted : session.attempt { table := .standard, config } with ⟨after, outcome⟩
      have finished := attempted
      rw [attempt_of_fetched fetches, carryOut_of_narrow narrow] at finished
      rcases finish_cases finished with
        ⟨fault, rfl, _⟩ | ⟨_, _, notWhole⟩ | ⟨stop, rfl, noFault, advances⟩
      · obtain ⟨rfl, _⟩ := eq_of_attempt_fault attempted
        exact Or.inl ⟨fault, rfl⟩
      · rw [whole] at notWhole
        exact absurd notWhole (by decide)
      · exact Or.inr ⟨after, stop, rfl, noFault, advances⟩

/-- A step with the standard table meets a fault and changes no more than the last error and the
halt, or it advances. -/
theorem step_standard_cases (config : Config) (session : Session) :
    (∃ fault, session.step { table := .standard, config } =
        (session.fail fault, .ok (some fault.stopReason))) ∨
      ∃ after stop, session.step { table := .standard, config } = (after, .ok stop) ∧
        stop.any isFaultReason = false ∧ session.Advances after := by
  rcases attempt_standard_cases config session with
    ⟨fault, faults⟩ | ⟨after, stop, completes, noFault, advances⟩
  · exact Or.inl ⟨fault, step_of_fault faults⟩
  · refine Or.inr ⟨after, stop, ?_, noFault, advances⟩
    rw [step, completes]

end Session

end Intel8085
