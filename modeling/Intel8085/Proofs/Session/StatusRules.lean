import Intel8085.Proofs.InstructionSet.StatusRules
import Intel8085.Proofs.Session.Outcomes

/-!
# The status byte across a step

With the standard table, a step that completes obeys the status rule of the instruction at the
program counter (`attempt_obeys_statusRule`).
-/

set_option autoImplicit false

namespace Intel8085

/-- The rules say nothing about the program counter. -/
theorem StatusRule.obeyed_of_machine {rule : StatusRule} {immediate : UInt8}
    {before reached after : Machine} (obeyed : rule.Obeyed immediate before reached)
    {address : UInt16}
    (moved : after =
      { reached with registers := { reached.registers with programCounter := address } }) :
    rule.Obeyed immediate before after := by
  subst moved
  have shows : ∀ result, reached.registers.ShowsResult result →
      Registers.ShowsResult { reached.registers with programCounter := address } result :=
    fun result shown => ⟨shown.zero, shown.sign, shown.parity⟩
  cases rule with
  | accumulator => exact ⟨obeyed.1, shows _ obeyed.2⟩
  | comparison operand => exact ⟨obeyed.1, obeyed.2.1, shows _ obeyed.2.2⟩
  | count operand =>
      have sameValue : operand.value immediate
          { reached with registers := { reached.registers with programCounter := address } } =
          operand.value immediate reached := by
        cases operand with
        | immediate => rfl
        | location location =>
            cases location with
            | memory => rfl
            | register register => cases register <;> rfl
      refine ⟨obeyed.1, ?_⟩
      rw [sameValue]
      exact shows _ obeyed.2
  | _ => exact obeyed

namespace Session

/-- An effect of an attempt that completes is whole and no fault, and its machine has only the
program counter still to be set. -/
theorem machine_of_finish {session after : Session} {line : TraceLine} {effect : Effect}
    {stop : Option StopReason}
    (finished : session.finish line effect = (after, .completed stop)) :
    effect.ending.isWhole = true ∧ effect.ending.isFault = false ∧
      ∃ address, after.machine =
        { effect.machine with
          registers := { effect.machine.registers with programCounter := address } } := by
  rw [finish] at finished
  cases ends : effect.ending with
  | fault fault => simp [ends] at finished
  | defect defect => simp [ends] at finished
  | halt =>
      simp only [ends] at finished
      cases finished
      exact ⟨rfl, rfl, effect.machine.registers.programCounter, rfl⟩
  | proceed next =>
      cases next with
      | none => simp [ends] at finished
      | some next =>
          simp only [ends] at finished
          split at finished
          · cases finished
            exact ⟨rfl, rfl, effect.machine.registers.programCounter, rfl⟩
          · cases finished
            exact ⟨rfl, rfl, wordOf next, rfl⟩

/-- With the standard table, whatever the configuration and the session: an attempt that completes,
which is a step without a fault, leaves the status byte as the rule of its instruction says. -/
theorem attempt_obeys_statusRule (config : Config) (session : Session) {after : Session}
    {stop : Option StopReason}
    (completes : session.attempt { table := .standard, config } = (after, .completed stop)) :
    session.step { table := .standard, config } = (after, .ok stop) ∧
      ∃ form, session.form? = some form ∧
        form.statusRule.Obeyed (session.machine.memory.read (session.programCounter + 1))
          session.machine after.machine := by
  obtain ⟨form, found, finished⟩ : ∃ form, session.form? = some form ∧
      session.finish (session.traceLine (session.fetched config form))
        (session.effect config form) = (after, .completed stop) := by
    rcases attempt_cases config session with ⟨fault, faults⟩ | ⟨form, found, _, attempts⟩
    · rw [faults] at completes
      cases completes
    · exact ⟨form, found, attempts.symm.trans completes⟩
  obtain ⟨whole, noFault, address, moved⟩ := machine_of_finish finished
  have obeyed := obeyed_execute (Form.statusRule_of_standard found) whole noFault
  refine ⟨step_of_completed completes, form, found, ?_⟩
  apply StatusRule.obeyed_of_machine _ moved
  by_cases ofImmediate : form.statusRule.isOfImmediate = true
  · have width := Form.width_of_status found ofImmediate
    have immediate : lowByte (session.contextOf config form).word =
        session.machine.memory.read (session.programCounter + 1) := by
      simp [Context.word, contextOf, Memory.valueBehind, width, lowByte_joinBytes]
    rwa [immediate] at obeyed
  · exact StatusRule.obeyed_of_other (Bool.eq_false_iff.2 ofImmediate) obeyed _

/-- A session that stands before a comparison of the accumulator with a byte of the same value, all
bits of the status byte being ones. -/
def beforeComparison : Session :=
  { Session.initial .standard with
    machine := { Machine.initial with
      registers := { Registers.zeroed with a := 5, status := 0xFF }
      memory := (Memory.blank.write 0 0xFE).write 1 5 } }

theorem attempt_obeys_statusRule_of_comparison :
    ∃ after, beforeComparison.attempt { table := .standard, config := .standard } =
        (after, .completed none) ∧
      after.machine.registers.status = 0x6E ∧
      ∃ form, beforeComparison.form? = some form ∧
        form.statusRule.Obeyed 5 beforeComparison.machine after.machine := by
  refine ⟨_, rfl, by decide, ?_⟩
  exact (attempt_obeys_statusRule .standard beforeComparison rfl).2

end Session

end Intel8085
