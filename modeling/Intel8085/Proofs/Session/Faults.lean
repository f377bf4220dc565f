import Intel8085.Proofs.Machine.Faults
import Intel8085.Proofs.Results
import Intel8085.Session.Step

/-!
# Faults of sessions

An attempt that meets a fault leaves the whole session as it was, and a step on it changes no more
than the last error and the halt (`attempt_fault_unchanged`).  This holds with every opcode table,
also where a pattern has more immediate bytes than its operation can use.
-/

set_option autoImplicit false

namespace Intel8085

/-! ## Fetching -/

theorem isOfInstruction_of_read {memory : Memory} {number : Int} {fault : Fault}
    (refused : memory.read? number = .error fault) : fault.isOfInstruction = true := by
  rw [Memory.read?, Memory.address] at refused
  split at refused
  · cases refused
  · cases refused
    rfl

theorem isOfInstruction_of_immediate {memory : Memory} {order : ByteOrder} {address : UInt16}
    {width : Nat} {fault : Fault} (refused : memory.immediate order address width = .error fault) :
    fault.isOfInstruction = true := by
  unfold Memory.immediate at refused
  split at refused
  · rcases bind_eq_error_iff.1 refused with unread | ⟨_, _, impossible⟩
    · exact isOfInstruction_of_read unread
    · cases impossible
  · rcases bind_eq_error_iff.1 refused with unread | ⟨_, _, second⟩
    · exact isOfInstruction_of_read unread
    · rcases bind_eq_error_iff.1 second with unread | ⟨_, _, impossible⟩
      · exact isOfInstruction_of_read unread
      · cases impossible
  · cases refused

theorem isOfInstruction_of_fetch {memory : Memory} {setup : Setup} {address : UInt16} {fault : Fault}
    (refused : memory.fetch setup address = .error fault) : fault.isOfInstruction = true := by
  unfold Memory.fetch at refused
  simp only at refused
  split at refused
  · cases refused
    rfl
  · rcases bind_eq_error_iff.1 refused with unread | ⟨_, _, impossible⟩
    · exact isOfInstruction_of_immediate unread
    · cases impossible

namespace Session

/-! ## Attempts -/

/-- A step that did not fail: one more step is counted, and the last error stays. -/
def Advances (session after : Session) : Prop :=
  after.lastError = session.lastError ∧ after.steps = session.steps + 1

/-- The reason is that of a fault. -/
def isFaultReason (reason : StopReason) : Bool :=
  reason == .illegal || reason == .unsupported || reason == .fault

/-- An operation that is finished met a fault, showed a defect or is completed. -/
theorem finish_cases {session after : Session} {line : TraceLine} {effect : Effect}
    {outcome : Outcome} (finished : session.finish line effect = (after, outcome)) :
    (∃ fault, outcome = .fault fault ∧ effect.ending = .fault fault ∧
      after = { session with machine := effect.machine }) ∨
    (∃ defect, outcome = .defect defect ∧ effect.ending.isWhole = false) ∨
      ∃ stop, outcome = .completed stop ∧ stop.any isFaultReason = false ∧
        session.Advances after := by
  unfold finish at finished
  cases ends : effect.ending with
  | fault fault =>
      simp only [ends] at finished
      cases finished
      exact Or.inl ⟨fault, rfl, rfl, rfl⟩
  | defect defect =>
      simp only [ends] at finished
      cases finished
      exact Or.inr (Or.inl ⟨_, rfl, rfl⟩)
  | halt =>
      simp only [ends] at finished
      cases finished
      exact Or.inr (Or.inr ⟨_, rfl, rfl, rfl, rfl⟩)
  | proceed next =>
      cases next with
      | none =>
          simp only [ends] at finished
          cases finished
          exact Or.inr (Or.inl ⟨_, rfl, rfl⟩)
      | some address =>
          simp only [ends] at finished
          split at finished
          · cases finished
            exact Or.inr (Or.inr ⟨_, rfl, rfl, rfl, rfl⟩)
          · cases finished
            exact Or.inr (Or.inr ⟨_, rfl, rfl, rfl, rfl⟩)

/-- An operation that is finished leaves the session with another machine, and unless the instruction
is not completed it is counted and traced. -/
theorem finish_leaves (session : Session) (line : TraceLine) (effect : Effect) :
    (∃ machine, (session.finish line effect).1 = { session with machine } ∧
      ∀ stop, (session.finish line effect).2 ≠ .completed stop) ∨
    ∃ machine halted,
      (session.finish line effect).1 = { session.record line with machine, halted } := by
  unfold finish
  cases effect.ending with
  | fault fault => exact Or.inl ⟨_, rfl, fun _ impossible => by cases impossible⟩
  | defect defect => exact Or.inl ⟨_, rfl, fun _ impossible => by cases impossible⟩
  | halt => exact Or.inr ⟨_, _, rfl⟩
  | proceed next =>
      cases next with
      | none => exact Or.inr ⟨_, _, rfl⟩
      | some address =>
          by_cases beyond : 0xFFFF < address
          · simp only [if_pos beyond]
            exact Or.inr ⟨_, _, rfl⟩
          · simp only [if_neg beyond]
            exact Or.inr ⟨_, _, rfl⟩

/-- An instruction that is completed is counted and traced. -/
theorem finish_completed_leaves {session after : Session} {line : TraceLine} {effect : Effect}
    {stop : Option StopReason}
    (finished : session.finish line effect = (after, .completed stop)) :
    ∃ machine halted, after = { session.record line with machine, halted } := by
  have leaves := finish_leaves session line effect
  rw [finished] at leaves
  rcases leaves with ⟨_, _, notCompleted⟩ | left
  · exact absurd rfl (notCompleted stop)
  · exact left

theorem finish_fault_unchanged {session after : Session} {line : TraceLine} {effect : Effect}
    {fault : Fault} (keeps : effect.KeepsOnFault session.machine)
    (faults : session.finish line effect = (after, .fault fault)) :
    after = session ∧ fault.isOfInstruction = true := by
  rcases finish_cases faults with ⟨other, same, ends, rfl⟩ | ⟨_, impossible, _⟩ | ⟨_, impossible, _⟩
  · cases same
    obtain ⟨sameMachine, ofInstruction⟩ := keeps fault ends
    refine ⟨?_, ofInstruction⟩
    rw [sameMachine]
  · cases impossible
  · cases impossible

theorem carryOut_fault_unchanged {setup : Setup} {session after : Session} {fetched : Fetched}
    {fault : Fault} (faults : session.carryOut setup fetched = (after, .fault fault)) :
    after = session ∧ fault.isOfInstruction = true := by
  unfold carryOut at faults
  split at faults
  · cases faults
  · exact finish_fault_unchanged
      (keepsOnFault_execute fetched.form.operation (session.context setup fetched) session.machine)
      faults

theorem attempt_of_fetched {setup : Setup} {session : Session} {fetched : Fetched}
    (fetches : session.machine.memory.fetch setup session.programCounter = .ok fetched) :
    session.attempt setup = session.carryOut setup fetched := by
  rw [attempt, fetches]

theorem attempt_of_not_fetched {setup : Setup} {session : Session} {fault : Fault}
    (refused : session.machine.memory.fetch setup session.programCounter = .error fault) :
    session.attempt setup = (session, .fault fault) := by
  rw [attempt, refused]

theorem carryOut_of_narrow {setup : Setup} {session : Session} {fetched : Fetched}
    (narrow : fetched.form.width ≤ 2) :
    session.carryOut setup fetched =
      session.finish (session.traceLine fetched)
        (fetched.form.operation.execute (session.context setup fetched) session.machine) := by
  have notWide : ¬ (session.tracing && decide (2 < fetched.form.width)) = true := by
    simp only [Bool.and_eq_true, decide_eq_true_eq, not_and]
    omega
  rw [carryOut, if_neg notWide]

theorem eq_of_attempt_fault {setup : Setup} {session after : Session} {fault : Fault}
    (faults : session.attempt setup = (after, .fault fault)) :
    after = session ∧ fault.isOfInstruction = true := by
  cases fetches : session.machine.memory.fetch setup session.programCounter with
  | error other =>
      rw [attempt_of_not_fetched fetches] at faults
      cases faults
      exact ⟨rfl, isOfInstruction_of_fetch fetches⟩
  | ok fetched =>
      rw [attempt_of_fetched fetches] at faults
      exact carryOut_fault_unchanged faults

theorem step_of_fault {setup : Setup} {session after : Session} {fault : Fault}
    (faults : session.attempt setup = (after, .fault fault)) :
    session.step setup = (session.fail fault, .ok (some fault.stopReason)) := by
  obtain ⟨rfl, _⟩ := eq_of_attempt_fault faults
  rw [step, faults]

/-- An attempt that meets a fault changes nothing, whatever the opcode table, the configuration and
the session; a step there keeps the fault as the last error and halts. -/
theorem attempt_fault_unchanged (setup : Setup) (session : Session) {after : Session} {fault : Fault}
    (faults : session.attempt setup = (after, .fault fault)) :
    after = session ∧ fault.isOfInstruction = true ∧
      session.step setup =
        ({ session with lastError := some fault, halted := true },
          .ok (some fault.stopReason)) := by
  obtain ⟨unchanged, ofInstruction⟩ := eq_of_attempt_fault faults
  exact ⟨unchanged, ofInstruction, step_of_fault faults⟩

/-- An `OUT` with a word for its port. -/
def wideOutput : OpcodeTable.Entry where
  opcode := 0
  pattern := ["OUT", "D16"]
  cycles := 3
  states := 10

/-- A session that stands before a word, whose value is no port. -/
def beforeWideOutput : Session :=
  { Session.initial (.ofProfile .datasheet) with
    machine := { Machine.initial with memory := (Memory.blank.write 1 1).write 2 1 } }

theorem attempt_fault_unchanged_of_wideOutput :
    ∃ table, OpcodeTable.ofEntries [wideOutput] = .ok table ∧
      beforeWideOutput.attempt { table, config := .ofProfile .datasheet } =
        (beforeWideOutput, .fault (.portOutOfBounds 257)) ∧
      beforeWideOutput.step { table, config := .ofProfile .datasheet } =
        ({ beforeWideOutput with lastError := some (.portOutOfBounds 257), halted := true },
          .ok (some .fault)) := by
  refine ⟨_, rfl, rfl, ?_⟩
  exact (attempt_fault_unchanged _ _ rfl).2.2

end Session

end Intel8085
