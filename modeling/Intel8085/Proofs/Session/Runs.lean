import Intel8085.Proofs.Session.Steps
import Intel8085.Session.Run

/-!
# What a run comes to

A run takes the least number of steps after which there is a reason to stop: the reason that the
last step gave, a cancellation, a budget that is used up, or a breakpoint, in this order.  It leaves
the machine as those steps leave it, halted; and it is never over if there is no reason to stop after
any number of steps (`resume_standard`).
-/

set_option autoImplicit false

namespace Intel8085.Session

/-- The session after so many steps of a run. -/
def after (setup : Setup) (session : Session) : Nat → Session
  | 0 => session.start
  | steps + 1 => ((after setup session steps).step setup).1

/-- The reason to stop that the last of so many steps gave. -/
def stepReason (setup : Setup) (session : Session) : Nat → Option StopReason
  | 0 => none
  | steps + 1 =>
      match ((after setup session steps).step setup).2 with
      | .ok reason => reason
      | .error _ => none

/-- The budget that the caller gives, or else that of the configuration. -/
def effectiveBudget (config : Config) (maxSteps : Option Int) : Option Int :=
  maxSteps.or (config.maxSteps.map Int.ofNat)

/-- The reason to stop after so many steps: that of the last step; or the answer to the next poll,
which is no only for the first `polls` of them; or the budget, where zero is none; or a breakpoint,
but not before the first step. -/
def reasonAfter (setup : Setup) (maxSteps polls : Option Int) (session : Session) (steps : Nat) :
    Option StopReason :=
  match session.stepReason setup steps with
  | some reason => some reason
  | none =>
      if polls.any fun polls => polls < (steps : Int) + 1 then some .cancelled
      else if (effectiveBudget setup.config maxSteps).any fun budget =>
          budget ≠ 0 && (steps : Int) ≥ budget then some .budget
      else if 1 ≤ steps ∧ (session.after setup steps).programCounter ∈
          (session.after setup steps).breakpoints then some .breakpoint
      else none

/-- There is a reason to stop after so many steps, and none after fewer. -/
def StopsAfter (setup : Setup) (maxSteps polls : Option Int) (session : Session) (steps : Nat)
    (reason : StopReason) : Prop :=
  session.reasonAfter setup maxSteps polls steps = some reason ∧
    ∀ earlier < steps, session.reasonAfter setup maxSteps polls earlier = none

section Turns

variable {setup : Setup} {maxSteps polls : Option Int} {session : Session}

theorem stopBefore_eq {steps : Nat} (noReason : session.stepReason setup steps = none) :
    (session.after setup steps).stopBefore (boundsOf setup.config maxSteps polls) steps =
      session.reasonAfter setup maxSteps polls steps := by
  have sameBudget : (boundsOf setup.config maxSteps polls).budget =
      effectiveBudget setup.config maxSteps := by
    cases maxSteps with
    | none => rfl
    | some limit => rfl
  have cancelled : (boundsOf setup.config maxSteps polls).isCancelled steps =
      polls.any fun polls => decide (polls < (steps : Int) + 1) := by
    have samePolls : (boundsOf setup.config maxSteps polls).polls = polls := rfl
    rw [Bounds.isCancelled, samePolls]
    congr 1
    funext count
    exact decide_eq_decide.2 Int.lt_add_one_iff.symm
  have spent : (boundsOf setup.config maxSteps polls).isSpent steps =
      (effectiveBudget setup.config maxSteps).any fun budget =>
        budget ≠ 0 && (steps : Int) ≥ budget := by
    rw [Bounds.isSpent, sameBudget]
  have breaks : (steps ≠ 0 && (session.after setup steps).atBreakpoint) = true ↔
      1 ≤ steps ∧ (session.after setup steps).programCounter ∈
        (session.after setup steps).breakpoints := by
    rw [Bool.and_eq_true, decide_eq_true_eq, atBreakpoint, List.contains_iff_mem,
      Nat.one_le_iff_ne_zero]
  simp only [stopBefore, reasonAfter, noReason, cancelled, spent, breaks]

theorem stepReason_of_reasonAfter {steps : Nat}
    (noReason : session.reasonAfter setup maxSteps polls steps = none) :
    session.stepReason setup steps = none := by
  rw [reasonAfter] at noReason
  cases stepped : session.stepReason setup steps with
  | none => rfl
  | some reason =>
      rw [stepped] at noReason
      cases noReason

theorem reasonAfter_of_stepReason {steps : Nat} {reason : StopReason}
    (stepped : session.stepReason setup steps = some reason) :
    session.reasonAfter setup maxSteps polls steps = some reason := by
  rw [reasonAfter, stepped]

theorem stepReason_succ {steps : Nat} {stop : Option StopReason}
    (stepped : ((session.after setup steps).step setup).2 = .ok stop) :
    session.stepReason setup (steps + 1) = stop := by
  rw [stepReason, stepped]

theorem step_after {steps : Nat} {stop : Option StopReason}
    (stepped : ((session.after setup steps).step setup).2 = .ok stop) :
    (session.after setup steps).step setup = (session.after setup (steps + 1), .ok stop) := by
  rw [← stepped]
  rfl

/-- A turn with no reason to stop before it takes a step, and the run is over if the step gives a
reason. -/
theorem turns_of_reason {steps : Nat} (patience : Nat) {reason : StopReason}
    (quiet : session.reasonAfter setup maxSteps polls steps = none)
    (stepped : ((session.after setup steps).step setup).2 = .ok (some reason)) :
    turns setup (boundsOf setup.config maxSteps polls) (patience + 1) steps
        (session.after setup steps) =
      (session.after setup (steps + 1), .stopped reason) := by
  rw [turns, stopBefore_eq (stepReason_of_reasonAfter quiet), quiet]
  simp only [step_after stepped]

theorem turns_of_step {steps : Nat} (patience : Nat)
    (quiet : session.reasonAfter setup maxSteps polls steps = none)
    (stepped : ((session.after setup steps).step setup).2 = .ok none) :
    turns setup (boundsOf setup.config maxSteps polls) (patience + 1) steps
        (session.after setup steps) =
      turns setup (boundsOf setup.config maxSteps polls) patience (steps + 1)
        (session.after setup (steps + 1)) := by
  rw [turns, stopBefore_eq (stepReason_of_reasonAfter quiet), quiet]
  simp only [step_after stepped]

/-- From a turn on, a run whose steps always come out takes the turns up to the first reason to
stop. -/
theorem turns_of_stopsAfter
    (comesOut : ∀ steps, ∃ stop, ((session.after setup steps).step setup).2 = .ok stop)
    {last : Nat} {reason : StopReason} (stops : session.StopsAfter setup maxSteps polls last reason)
    {left executed patience : Nat} (remaining : executed + left = last) (enough : left < patience)
    (noReason : session.stepReason setup executed = none) :
    turns setup (boundsOf setup.config maxSteps polls) patience executed
        (session.after setup executed) =
      (session.after setup last, .stopped reason) := by
  -- on the turns that are left; the session stays that after the turns already taken
  induction left generalizing executed patience with
  | zero =>
      obtain ⟨more, rfl⟩ := Nat.exists_eq_add_of_lt enough
      rw [Nat.add_zero] at remaining
      subst remaining
      rw [Nat.zero_add, turns, stopBefore_eq noReason, stops.1]
  | succ left inductionHypothesis =>
      obtain ⟨fewer, rfl⟩ : ∃ fewer, patience = fewer + 1 := ⟨patience - 1, by omega⟩
      obtain ⟨stop, stepped⟩ := comesOut executed
      have quiet := stops.2 executed (by omega)
      cases stop with
      | none =>
          rw [turns_of_step fewer quiet stepped]
          exact inductionHypothesis (by omega) (by omega) (stepReason_succ stepped)
      | some found =>
          have isReason : session.reasonAfter setup maxSteps polls (executed + 1) = some found :=
            reasonAfter_of_stepReason (stepReason_succ stepped)
          have isLast : executed + 1 = last := by
            by_cases before : executed + 1 < last
            · rw [stops.2 (executed + 1) before] at isReason
              cases isReason
            · omega
          subst isLast
          rw [stops.1] at isReason
          cases isReason
          exact turns_of_reason fewer quiet stepped

theorem turns_of_no_reason
    (comesOut : ∀ steps, ∃ stop, ((session.after setup steps).step setup).2 = .ok stop)
    (never : ∀ steps, session.reasonAfter setup maxSteps polls steps = none)
    (patience executed : Nat) :
    turns setup (boundsOf setup.config maxSteps polls) patience executed
        (session.after setup executed) =
      (session.after setup (executed + patience), .unfinished) := by
  induction patience generalizing executed with
  | zero => rfl
  | succ patience inductionHypothesis =>
      obtain ⟨stop, stepped⟩ := comesOut executed
      have noStop := stepReason_of_reasonAfter (never (executed + 1))
      rw [stepReason_succ stepped] at noStop
      subst noStop
      rw [turns_of_step patience (never executed) stepped, inductionHypothesis (executed + 1),
        Nat.add_right_comm, Nat.add_assoc]

end Turns

/-! ## Errors and counts -/

section Standard

variable {config : Config} {session : Session}

theorem step_standard_comesOut (config : Config) (session : Session) (steps : Nat) :
    ∃ stop, ((session.after { table := .standard, config } steps).step
      { table := .standard, config }).2 = .ok stop := by
  rcases step_standard_cases config (session.after { table := .standard, config } steps) with
    ⟨fault, failed⟩ | ⟨_, stop, advanced, _⟩
  · exact ⟨some fault.stopReason, by rw [failed]⟩
  · exact ⟨stop, by rw [advanced]⟩

/-- What the step behind so many others does to the last error and the count. -/
theorem after_succ_cases (steps : Nat) :
    (∃ fault, session.after { table := .standard, config } (steps + 1) =
        (session.after { table := .standard, config } steps).fail fault ∧
      session.stepReason { table := .standard, config } (steps + 1) = some fault.stopReason) ∨
    ((session.after { table := .standard, config } steps).Advances
        (session.after { table := .standard, config } (steps + 1)) ∧
      (session.stepReason { table := .standard, config } (steps + 1)).any isFaultReason =
        false) := by
  rcases step_standard_cases config (session.after { table := .standard, config } steps) with
    ⟨fault, failed⟩ | ⟨next, stop, advanced, noFault, advances⟩
  · refine Or.inl ⟨fault, ?_, ?_⟩
    · rw [after, failed]
    · rw [stepReason, failed]
  · refine Or.inr ⟨?_, ?_⟩
    · rw [after, advanced]
      exact advances
    · rw [stepReason, advanced]
      exact noFault

/-- As long as no step gives a reason, there is no error and every step counts. -/
theorem count_of_quiet {steps : Nat}
    (quiet : ∀ earlier ≤ steps,
      session.stepReason { table := .standard, config } earlier = none) :
    (session.after { table := .standard, config } steps).lastError = none ∧
      (session.after { table := .standard, config } steps).steps = session.steps + steps := by
  induction steps with
  | zero => exact ⟨rfl, rfl⟩
  | succ steps inductionHypothesis =>
      obtain ⟨noError, counted⟩ := inductionHypothesis fun earlier before =>
        quiet earlier (by omega)
      rcases after_succ_cases steps with ⟨fault, _, gives⟩ | ⟨⟨sameError, oneMore⟩, _⟩
      · rw [quiet (steps + 1) (Nat.le_refl _)] at gives
        cases gives
      · rw [sameError, oneMore, noError, counted]
        exact ⟨rfl, Nat.add_assoc _ _ _⟩

theorem isFaultReason_of_no_stepReason {setup : Setup} {maxSteps polls : Option Int} {steps : Nat}
    {reason : StopReason} (quiet : session.stepReason setup steps = none)
    (isReason : session.reasonAfter setup maxSteps polls steps = some reason) :
    isFaultReason reason = false := by
  rw [reasonAfter, quiet] at isReason
  simp only at isReason
  split at isReason
  · cases isReason
    rfl
  · split at isReason
    · cases isReason
      rfl
    · split at isReason
      · cases isReason
        rfl
      · cases isReason

/-- The last step of a run gave the reason to stop: a fault is kept and not counted. -/
theorem count_of_stepReason {steps : Nat} {reason : StopReason}
    (quiet : ∀ earlier ≤ steps,
      session.stepReason { table := .standard, config } earlier = none)
    (stepped : session.stepReason { table := .standard, config } (steps + 1) = some reason) :
    (session.after { table := .standard, config } (steps + 1)).lastError.isSome =
        isFaultReason reason ∧
      (session.after { table := .standard, config } (steps + 1)).steps +
          (if isFaultReason reason then 1 else 0) = session.steps + (steps + 1) := by
  obtain ⟨noError, counted⟩ := count_of_quiet quiet
  rcases after_succ_cases steps with ⟨fault, failed, gives⟩ | ⟨⟨sameError, oneMore⟩, noFault⟩
  · rw [stepped] at gives
    cases gives
    rw [failed, isFaultReason_stopReason]
    refine ⟨rfl, ?_⟩
    change (session.after _ steps).steps + 1 = _
    rw [counted, Nat.add_assoc]
  · rw [stepped, Option.any_some] at noFault
    rw [sameError, oneMore, noError, counted, noFault]
    exact ⟨rfl, Nat.add_assoc _ _ _⟩

/-- At the end of a run there is an error exactly when the reason is that of a fault, and the step
that met the fault is not counted. -/
theorem count_of_stopsAfter {maxSteps polls : Option Int} {steps : Nat} {reason : StopReason}
    (stops : session.StopsAfter { table := .standard, config } maxSteps polls steps reason) :
    (session.after { table := .standard, config } steps).lastError.isSome = isFaultReason reason ∧
      (session.after { table := .standard, config } steps).steps +
          (if isFaultReason reason then 1 else 0) = session.steps + steps := by
  obtain ⟨isReason, before⟩ := stops
  have quietBefore : ∀ earlier < steps,
      session.stepReason { table := .standard, config } earlier = none :=
    fun earlier isBefore => stepReason_of_reasonAfter (before earlier isBefore)
  cases stepped : session.stepReason { table := .standard, config } steps with
  | none =>
      have quiet : ∀ earlier ≤ steps,
          session.stepReason { table := .standard, config } earlier = none := by
        intro earlier atMost
        rcases Nat.lt_or_eq_of_le atMost with isBefore | rfl
        · exact quietBefore earlier isBefore
        · exact stepped
      obtain ⟨noError, counted⟩ := count_of_quiet quiet
      rw [noError, counted, isFaultReason_of_no_stepReason stepped isReason]
      exact ⟨rfl, rfl⟩
  | some found =>
      rw [reasonAfter_of_stepReason stepped] at isReason
      cases isReason
      cases steps with
      | zero => cases stepped
      | succ steps =>
          exact count_of_stepReason (fun earlier atMost => quietBefore earlier (by omega)) stepped

end Standard

/-! ## Runs -/

/-- What a run leaves that is over after so many steps for a reason. -/
structure EndsAfter (setup : Setup) (session : Session) (steps : Nat) (reason : StopReason)
    (result : Session × RunOutcome) : Prop where
  left : result = ({ session.after setup steps with halted := true }, .stopped reason)
  error : result.1.lastError.isSome = isFaultReason reason
  counted : result.1.steps + (if isFaultReason reason then 1 else 0) = session.steps + steps

/-- With the standard table, whatever the configuration, the session, the budget and the polls: a run
ends after the least number of steps that give a reason to stop, and it has no end if there is no such
number.  Running is going on from address zero. -/
theorem resume_standard (config : Config) (session : Session) (maxSteps polls : Option Int) :
    (∀ steps reason,
      session.StopsAfter { table := .standard, config } maxSteps polls steps reason →
        ∀ patience, steps < patience →
          session.EndsAfter { table := .standard, config } steps reason
            (session.resume { table := .standard, config } patience maxSteps polls)) ∧
    ((∀ steps, session.reasonAfter { table := .standard, config } maxSteps polls steps = none) →
      ∀ patience,
        (session.resume { table := .standard, config } patience maxSteps polls).2 =
          .unfinished) ∧
    ∀ patience, session.run { table := .standard, config } patience maxSteps polls =
      (session.goTo 0).resume { table := .standard, config } patience maxSteps polls := by
  have comesOut := step_standard_comesOut config session
  have started : session.after { table := .standard, config } 0 = session.start := rfl
  refine ⟨?_, ?_, fun patience => rfl⟩
  · intro steps reason stops patience enough
    have turned := turns_of_stopsAfter comesOut stops (Nat.zero_add steps) enough rfl
    rw [started] at turned
    have result : session.resume { table := .standard, config } patience maxSteps polls =
        ((session.after { table := .standard, config } steps).halt, .stopped reason) := by
      rw [resume, turned]
    obtain ⟨error, counted⟩ := count_of_stopsAfter stops
    rw [result]
    exact ⟨rfl, error, counted⟩
  · intro never patience
    have turned := turns_of_no_reason comesOut never patience 0
    rw [started] at turned
    rw [resume, turned]

/-- A session that stands before a `NOP` and a `HLT`. -/
def beforeHalt : Session :=
  { Session.initial .standard with
    machine := { Machine.initial with memory := Memory.blank.write 1 0x76 } }

/-- A session that stands before a jump to the jump itself. -/
def beforeLoop : Session :=
  { Session.initial .standard with
    machine := { Machine.initial with memory := Memory.blank.write 0 0xC3 } }

theorem fetch_beforeLoop :
    beforeLoop.machine.memory.fetch { table := .standard, config := .standard } 0 =
      .ok { form := .ofPattern "JMP" ["D16"] 3 10, immediate := some 0 } := rfl

theorem step_beforeLoop (steps : Nat) :
    Session.step { table := .standard, config := .standard } { beforeLoop.start with steps } =
      ({ beforeLoop.start with steps := steps + 1 }, .ok none) := by
  have attempts : Session.attempt { table := .standard, config := .standard }
      { beforeLoop.start with steps } =
        ({ beforeLoop.start with steps := steps + 1 }, .completed none) := by
    rw [@attempt_of_fetched _ { beforeLoop.start with steps } _ fetch_beforeLoop]
    rfl
  rw [step, attempts]

theorem after_beforeLoop (steps : Nat) :
    beforeLoop.after { table := .standard, config := .standard } steps =
      { beforeLoop.start with steps } := by
  induction steps with
  | zero => rfl
  | succ steps inductionHypothesis => rw [after, inductionHypothesis, step_beforeLoop]

theorem reasonAfter_beforeLoop (steps : Nat) :
    beforeLoop.reasonAfter { table := .standard, config := .standard } (some 0) none steps =
      none := by
  have noReason : beforeLoop.stepReason { table := .standard, config := .standard } steps =
      none := by
    cases steps with
    | zero => rfl
    | succ steps =>
        rw [stepReason, after_beforeLoop, step_beforeLoop]
  have noBreakpoint : (beforeLoop.after { table := .standard, config := .standard }
      steps).breakpoints = [] := by
    rw [after_beforeLoop]
    rfl
  simp [reasonAfter, noReason, noBreakpoint, effectiveBudget]

theorem resume_standard_of_halt_and_loop :
    (beforeHalt.StopsAfter { table := .standard, config := .standard } none none 2 .halt ∧
      beforeHalt.EndsAfter { table := .standard, config := .standard } 2 .halt
        (beforeHalt.resume { table := .standard, config := .standard } 3 none none)) ∧
    (∀ steps, beforeLoop.reasonAfter { table := .standard, config := .standard } (some 0) none
        steps = none) ∧
      ∀ patience, (beforeLoop.resume { table := .standard, config := .standard } patience (some 0)
        none).2 = .unfinished := by
  have stops : beforeHalt.StopsAfter { table := .standard, config := .standard } none none 2
      .halt := by
    refine ⟨rfl, ?_⟩
    intro earlier isBefore
    obtain rfl | rfl : earlier = 0 ∨ earlier = 1 := by omega
    · rfl
    · rfl
  refine ⟨⟨stops, ?_⟩, reasonAfter_beforeLoop, ?_⟩
  · exact (resume_standard .standard beforeHalt none none).1 2 .halt stops 3 (by decide)
  · exact (resume_standard .standard beforeLoop (some 0) none).2.1 reasonAfter_beforeLoop

end Intel8085.Session
