import Intel8085.Proofs.Session.Locality
import Intel8085.Session.Run

/-!
# Input, output and decimal adjustment as an extension

A configuration that leaves out input, output and decimal adjustment differs from the one that models
them only at these instructions.  So a run that does not stop at one of them without a model is the
same run with the model: it stops for the same reason and leaves the same session, and no port changes
on the way (`run_withIoAndBcd`).
-/

set_option autoImplicit false

namespace Intel8085

namespace Config

def withoutIoAndBcd (config : Config) : Config :=
  { config with modelsIoAndBcd := false }

def withIoAndBcd (config : Config) : Config :=
  { config with modelsIoAndBcd := true }

end Config

/-- Only an operation that a configuration may leave out looks at the configuration. -/
theorem execute_withConfig {operation : Operation} (always : operation.control ≠ .modelledOnly)
    (context : Context) (config : Config) (machine : Machine) :
    operation.execute { context with config } machine = operation.execute context machine := by
  cases operation with
  | accumulate operation operand => cases operand <;> rfl
  | decimalAdjust => exact absurd rfl always
  | input => exact absurd rfl always
  | output => exact absurd rfl always
  | _ => rfl

/-- An instruction has a mnemonic of those that a configuration may leave out, if its operation looks
at the configuration. -/
theorem Form.isOptional_of_modelledOnly {opcode : UInt8} {form : Form}
    (found : OpcodeTable.standard.form? opcode = some form)
    (optional : form.operation.control = .modelledOnly) : form.mnemonic ∈ optionalMnemonics := by
  rw [Form.control_of_standard found, Form.control] at optional
  split at optional
  · cases optional
  · split at optional
    · rename_i member
      exact List.contains_iff_mem.1 member
    · split at optional
      · cases optional
      · split at optional <;> cases optional

namespace Session

/-- The reason is that the last instruction is one that a configuration may leave out. -/
def IsLeftOut (session : Session) (reason : StopReason) : Prop :=
  reason = .unsupported ∧ ∃ mnemonic ∈ optionalMnemonics, ∃ address,
    session.lastError = some (.unsupportedInstruction mnemonic address)

/-! ## Steps -/

section Steps

variable (config : Config) (session : Session)

/-- Without a model of input, output and decimal adjustment, a step stops at one of them, or it is the
step with the model and leaves the ports alone. -/
theorem step_withoutIoAndBcd :
    (∃ fault, session.step { table := .standard, config := config.withoutIoAndBcd } =
        (session.fail fault, .ok (some .unsupported)) ∧
      (session.fail fault).IsLeftOut .unsupported) ∨
    (session.step { table := .standard, config := config.withIoAndBcd } =
        session.step { table := .standard, config := config.withoutIoAndBcd } ∧
      (session.step { table := .standard, config := config.withoutIoAndBcd }).1.machine.ports =
        session.machine.ports) := by
  have samePorts :
      (session.step { table := .standard, config := config.withoutIoAndBcd }).1.machine.ports =
        session.machine.ports := by
    rw [ports_step]
    rcases ports_attempt config.withoutIoAndBcd session with kept | ⟨_, _, _, modelled, _⟩
    · exact kept
    · cases modelled
  have sameStep : ∀ result,
      session.attempt { table := .standard, config := config.withIoAndBcd } = result →
      session.attempt { table := .standard, config := config.withoutIoAndBcd } = result →
        session.step { table := .standard, config := config.withIoAndBcd } =
          session.step { table := .standard, config := config.withoutIoAndBcd } := by
    intro result attempts attemptsToo
    rw [step, step, attempts, attemptsToo]
  cases found : session.form? with
  | none => exact Or.inr ⟨sameStep _ (attempt_of_no_form found) (attempt_of_no_form found), samePorts⟩
  | some form =>
      by_cases fits : session.behind form ≤ Memory.size
      · by_cases optional : form.operation.control = .modelledOnly
        · have member := Form.isOptional_of_modelledOnly found optional
          have unmodelled : form.isUnmodelled config.withoutIoAndBcd = true := by
            rw [Form.isUnmodelled, List.contains_iff_mem.2 member]
            exact Bool.or_true _
          exact Or.inl ⟨_, step_of_unmodelled found fits unmodelled, rfl, _, member, _, rfl⟩
        · have sameEffect : session.effect config.withIoAndBcd form =
              session.effect config.withoutIoAndBcd form :=
            execute_withConfig optional (session.contextOf config.withoutIoAndBcd form)
              config.withIoAndBcd session.machine
          have attempts := attempt_of_form config.withIoAndBcd found fits
          rw [sameEffect] at attempts
          exact Or.inr ⟨sameStep _ attempts (attempt_of_form config.withoutIoAndBcd found fits),
            samePorts⟩
      · have cut : Memory.size < session.behind form := Nat.lt_of_not_le fits
        have narrow := narrow_of_form found
        exact Or.inr ⟨sameStep _ (attempt_of_cut found narrow cut) (attempt_of_cut found narrow cut),
          samePorts⟩

end Steps

/-! ## Runs -/

section Runs

variable {config : Config} {session final : Session} {reason : StopReason}

/-- The two runs are in lock step as long as the one without the model does not stop for the lack of
it. -/
theorem turns_withIoAndBcd {bounds : Bounds} {patience executed : Nat}
    (turned : turns { table := .standard, config := config.withoutIoAndBcd } bounds patience executed
      session = (final, .stopped reason))
    (modelled : ¬ final.IsLeftOut reason) :
    turns { table := .standard, config := config.withIoAndBcd } bounds patience executed session =
        (final, .stopped reason) ∧
      final.machine.ports = session.machine.ports := by
  induction patience generalizing executed session with
  | zero => cases turned
  | succ patience inductionHypothesis =>
      rw [turns] at turned ⊢
      cases stops : session.stopBefore bounds executed with
      | some found =>
          rw [stops] at turned
          cases turned
          exact ⟨rfl, rfl⟩
      | none =>
          rw [stops] at turned
          simp only at turned ⊢
          rcases step_withoutIoAndBcd config session with ⟨fault, failed, leftOut⟩ | ⟨same, ports⟩
          · rw [failed] at turned
            cases turned
            exact absurd leftOut modelled
          · rw [same]
            rcases stepped : session.step { table := .standard, config := config.withoutIoAndBcd }
              with ⟨after, result⟩
            rw [stepped] at turned ports
            cases result with
            | error defect => cases turned
            | ok stop =>
                cases stop with
                | some found =>
                    cases turned
                    exact ⟨rfl, ports⟩
                | none =>
                    obtain ⟨turnedToo, kept⟩ := inductionHypothesis turned
                    exact ⟨turnedToo, kept.trans ports⟩

theorem resume_withIoAndBcd {maxSteps polls : Option Int} {patience : Nat}
    (ran : session.resume { table := .standard, config := config.withoutIoAndBcd } patience maxSteps
      polls = (final, .stopped reason))
    (modelled : ¬ final.IsLeftOut reason) :
    session.resume { table := .standard, config := config.withIoAndBcd } patience maxSteps polls =
        (final, .stopped reason) ∧
      final.machine.ports = session.machine.ports := by
  rw [resume] at ran ⊢
  rcases turned : turns { table := .standard, config := config.withoutIoAndBcd }
    (boundsOf config.withoutIoAndBcd maxSteps polls) patience 0 session.start with ⟨reached, outcome⟩
  rw [turned] at ran
  cases outcome with
  | failed defect => cases ran
  | unfinished => cases ran
  | stopped found =>
      cases ran
      obtain ⟨turnedToo, ports⟩ := turns_withIoAndBcd turned modelled
      have sameBounds : boundsOf config.withIoAndBcd maxSteps polls =
          boundsOf config.withoutIoAndBcd maxSteps polls := rfl
      rw [sameBounds, turnedToo]
      exact ⟨rfl, ports⟩

end Runs

/-- With the standard table, whatever the rest of the configuration, the session, the budget and the
polls: a run without a model of input, output and decimal adjustment that stops, but not at one of
these instructions, stops for the same reason and in the same session with the model.  The values of
the ports, their observers and the journal of what these were told are as before the run. -/
theorem run_withIoAndBcd (config : Config) (session : Session) (maxSteps polls : Option Int)
    {patience : Nat} {final : Session} {reason : StopReason}
    (ran : session.run { table := .standard, config := config.withoutIoAndBcd } patience maxSteps
      polls = (final, .stopped reason))
    (modelled : ¬ final.IsLeftOut reason) :
    session.run { table := .standard, config := config.withIoAndBcd } patience maxSteps polls =
        (final, .stopped reason) ∧
      final.machine.ports = session.machine.ports :=
  resume_withIoAndBcd ran modelled

/-- A session with an observer on a port that stands before `MVI A, 0FFH` and `RIM`. -/
def beforeMaskRead : Session :=
  { Session.initial .standard with
    machine :=
      { Machine.initial with
        memory := ((Memory.blank.write 0 0x3E).write 1 0xFF).write 2 0x20
        ports := Ports.silent.observe 0xFF "lamp" } }

theorem run_withIoAndBcd_of_maskRead :
    ∃ final, beforeMaskRead.run
        { table := .standard, config := (Config.standard).withoutIoAndBcd } 3 none none =
          (final, .stopped .unsupported) ∧
      final.lastError = some (.unsupportedInstruction "RIM" (some 2)) ∧
      ¬ final.IsLeftOut .unsupported ∧
      beforeMaskRead.run { table := .standard, config := (Config.standard).withIoAndBcd } 3 none none =
        (final, .stopped .unsupported) ∧
      final.machine.ports = beforeMaskRead.machine.ports := by
  obtain ⟨final, ran, error⟩ : ∃ final, beforeMaskRead.run
      { table := .standard, config := (Config.standard).withoutIoAndBcd } 3 none none =
        (final, .stopped .unsupported) ∧
      final.lastError = some (.unsupportedInstruction "RIM" (some 2)) := ⟨_, rfl, rfl⟩
  have modelled : ¬ final.IsLeftOut .unsupported := by
    rintro ⟨_, mnemonic, member, address, other⟩
    rw [error] at other
    cases other
    exact absurd member (by decide)
  exact ⟨final, ran, error, modelled, run_withIoAndBcd .standard beforeMaskRead none none ran modelled⟩

end Session

end Intel8085
