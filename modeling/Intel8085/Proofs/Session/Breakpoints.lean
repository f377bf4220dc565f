import Intel8085.Proofs.Session.Runs

/-!
# Breakpoints and what a program computes

No step looks at the breakpoints.  So a run that stops at one and is resumed goes on as the run
without breakpoints does: resumed as long as it stops at breakpoints, it ends for the reason of that
run and leaves what that run leaves, and it stops less often than that run takes steps
(`resumeThrough_standard`).
-/

set_option autoImplicit false

namespace Intel8085.Session

/-- The session with these breakpoints in the place of its own. -/
def withBreakpoints (session : Session) (breakpoints : List UInt16) : Session :=
  { session with breakpoints }

/-- Resumes without a budget, again and again as long as the run stops at a breakpoint, but at most
`times` times.  The number is that of the stops at breakpoints. -/
def resumeThrough (setup : Setup) (patience : Nat) :
    (times : Nat) → Session → Nat × Session × RunOutcome
  | 0, session => (0, session, .unfinished)
  | times + 1, session =>
      match session.resume setup patience (some 0) none with
      | (after, .stopped .breakpoint) =>
          let (breaks, result) := resumeThrough setup patience times after
          (breaks + 1, result)
      | result => (0, result)

/-! ## Steps -/

theorem finish_withBreakpoints (session : Session) (breakpoints : List UInt16) (line : TraceLine)
    (effect : Effect) :
    (session.withBreakpoints breakpoints).finish line effect =
      ((session.finish line effect).1.withBreakpoints breakpoints,
        (session.finish line effect).2) := by
  unfold finish
  cases effect.ending with
  | fault fault => rfl
  | defect defect => rfl
  | halt => rfl
  | proceed next =>
      cases next with
      | none => rfl
      | some address =>
          by_cases beyond : 0xFFFF < address
          · simp only [if_pos beyond]
            rfl
          · simp only [if_neg beyond]
            rfl

theorem attempt_withBreakpoints (setup : Setup) (session : Session)
    (breakpoints : List UInt16) :
    (session.withBreakpoints breakpoints).attempt setup =
      ((session.attempt setup).1.withBreakpoints breakpoints, (session.attempt setup).2) := by
  cases fetches : session.machine.memory.fetch setup session.programCounter with
  | error fault =>
      have refused : (session.withBreakpoints breakpoints).machine.memory.fetch setup
          (session.withBreakpoints breakpoints).programCounter = .error fault := fetches
      rw [attempt_of_not_fetched fetches, attempt_of_not_fetched refused]
  | ok fetched =>
      have fetchesToo : (session.withBreakpoints breakpoints).machine.memory.fetch setup
          (session.withBreakpoints breakpoints).programCounter = .ok fetched := fetches
      rw [attempt_of_fetched fetches, attempt_of_fetched fetchesToo, carryOut, carryOut]
      by_cases tooWide : (session.tracing && 2 < fetched.form.width) = true
      · rw [if_pos tooWide]
        exact if_pos tooWide
      · rw [if_neg tooWide]
        exact (if_neg tooWide).trans (finish_withBreakpoints session breakpoints _ _)

/-- A step leaves the breakpoints alone, and nothing else that it does depends on them. -/
theorem step_withBreakpoints (setup : Setup) (session : Session) (breakpoints : List UInt16) :
    (session.withBreakpoints breakpoints).step setup =
      ((session.step setup).1.withBreakpoints breakpoints, (session.step setup).2) := by
  rw [step, step, attempt_withBreakpoints]
  cases attempted : session.attempt setup with
  | mk after outcome =>
      cases outcome with
      | completed stop => rfl
      | fault fault => rfl
      | defect defect => rfl

theorem breakpoints_step (setup : Setup) (session : Session) :
    (session.step setup).1.breakpoints = session.breakpoints :=
  congrArg (fun result => result.1.breakpoints)
    (step_withBreakpoints setup session session.breakpoints)

/-- The reason is one that a step gives, and not the run that looks before it. -/
def isStepReason (reason : StopReason) : Bool :=
  !(reason == .breakpoint || reason == .budget || reason == .cancelled)

/-- A step that gives no reason to stop leaves the halt and the last error alone. -/
theorem finish_completed {session after : Session} {line : TraceLine} {effect : Effect}
    {stop : Option StopReason} (finished : session.finish line effect = (after, .completed stop)) :
    stop.all isStepReason = true ∧
      (stop = none → after.halted = session.halted ∧ after.lastError = session.lastError) := by
  unfold finish at finished
  cases ends : effect.ending with
  | fault fault =>
      simp only [ends] at finished
      cases finished
  | defect defect =>
      simp only [ends] at finished
      cases finished
  | halt =>
      simp only [ends] at finished
      cases finished
      exact ⟨rfl, fun impossible => by cases impossible⟩
  | proceed next =>
      cases next with
      | none =>
          simp only [ends] at finished
          cases finished
      | some address =>
          simp only [ends] at finished
          split at finished
          · cases finished
            exact ⟨rfl, fun impossible => by cases impossible⟩
          · cases finished
            exact ⟨rfl, fun _ => ⟨rfl, rfl⟩⟩

theorem attempt_completed {setup : Setup} {session after : Session} {stop : Option StopReason}
    (attempted : session.attempt setup = (after, .completed stop)) :
    stop.all isStepReason = true ∧
      (stop = none → after.halted = session.halted ∧ after.lastError = session.lastError) := by
  cases fetches : session.machine.memory.fetch setup session.programCounter with
  | error fault =>
      rw [attempt_of_not_fetched fetches] at attempted
      cases attempted
  | ok fetched =>
      rw [attempt_of_fetched fetches, carryOut] at attempted
      split at attempted
      · cases attempted
      · exact finish_completed attempted

theorem isStepReason_of_isFaultReason {reason : StopReason}
    (isFault : isFaultReason reason = true) : isStepReason reason = true := by
  cases reason with
  | breakpoint => cases isFault
  | budget => cases isFault
  | cancelled => cases isFault
  | _ => rfl

theorem step_comesOut {setup : Setup} {session after : Session} {stop : Option StopReason}
    (stepped : session.step setup = (after, .ok stop)) :
    stop.all isStepReason = true ∧
      (stop = none → after.halted = session.halted ∧ after.lastError = session.lastError) := by
  rw [step] at stepped
  cases attempted : session.attempt setup with
  | mk middle outcome =>
      rw [attempted] at stepped
      cases outcome with
      | completed found =>
          cases stepped
          exact attempt_completed attempted
      | fault fault =>
          cases stepped
          refine ⟨?_, fun impossible => by cases impossible⟩
          rw [Option.all_some]
          exact isStepReason_of_isFaultReason (isFaultReason_stopReason fault)
      | defect defect => cases stepped

/-! ## Sequences of steps -/

section Steps

variable {setup : Setup} {session : Session}

theorem after_withBreakpoints (breakpoints : List UInt16) (steps : Nat) :
    (session.withBreakpoints breakpoints).after setup steps =
      (session.after setup steps).withBreakpoints breakpoints := by
  induction steps with
  | zero => rfl
  | succ steps inductionHypothesis =>
      rw [after, after, inductionHypothesis, step_withBreakpoints]

theorem stepReason_withBreakpoints (breakpoints : List UInt16) (steps : Nat) :
    (session.withBreakpoints breakpoints).stepReason setup steps =
      session.stepReason setup steps := by
  cases steps with
  | zero => rfl
  | succ steps => rw [stepReason, stepReason, after_withBreakpoints, step_withBreakpoints]

theorem breakpoints_after (steps : Nat) :
    (session.after setup steps).breakpoints = session.breakpoints := by
  induction steps with
  | zero => rfl
  | succ steps inductionHypothesis => rw [after, breakpoints_step, inductionHypothesis]

theorem isStepReason_of_stepReason {steps : Nat} {reason : StopReason}
    (stepped : session.stepReason setup steps = some reason) : isStepReason reason = true := by
  cases steps with
  | zero => cases stepped
  | succ steps =>
      rw [stepReason] at stepped
      cases result : (session.after setup steps).step setup with
      | mk next outcome =>
          rw [result] at stepped
          cases outcome with
          | ok stop =>
              have isOne := (step_comesOut result).1
              rw [show stop = some reason from stepped] at isOne
              exact isOne
          | error defect => cases stepped

variable (comesOut : ∀ steps, ∃ stop, ((session.after setup steps).step setup).2 = .ok stop)
include comesOut

/-- As long as no step gives a reason, the run is not halted and has no error. -/
theorem running_of_quiet {steps : Nat}
    (quiet : ∀ earlier ≤ steps, session.stepReason setup earlier = none) :
    (session.after setup steps).halted = false ∧
      (session.after setup steps).lastError = none := by
  induction steps with
  | zero => exact ⟨rfl, rfl⟩
  | succ steps inductionHypothesis =>
      obtain ⟨running, noError⟩ := inductionHypothesis fun earlier before =>
        quiet earlier (by omega)
      obtain ⟨stop, stepped⟩ := comesOut steps
      have noReason := quiet (steps + 1) (Nat.le_refl _)
      rw [stepReason_succ stepped] at noReason
      obtain ⟨sameHalt, sameError⟩ := (step_comesOut (step_after stepped)).2 noReason
      exact ⟨sameHalt.trans running, sameError.trans noError⟩

/-- A run that was stopped before any step gave a reason goes on where it was. -/
theorem after_halt {steps : Nat}
    (quiet : ∀ earlier ≤ steps, session.stepReason setup earlier = none) (more : Nat) :
    (session.after setup steps).halt.after setup more = session.after setup (steps + more) := by
  induction more with
  | zero =>
      obtain ⟨running, noError⟩ := running_of_quiet comesOut quiet
      have restarted : (session.after setup steps).halt.start =
          { session.after setup steps with
            halted := (session.after setup steps).halted
            lastError := (session.after setup steps).lastError } := by
        rw [running, noError]
        rfl
      exact restarted
  | succ more inductionHypothesis =>
      rw [after, inductionHypothesis]
      rfl

theorem stepReason_halt {steps : Nat}
    (quiet : ∀ earlier ≤ steps, session.stepReason setup earlier = none) (more : Nat) :
    (session.after setup steps).halt.stepReason setup more =
      session.stepReason setup (steps + more) := by
  cases more with
  | zero => exact (quiet steps (Nat.le_refl _)).symm
  | succ more =>
      rw [stepReason, after_halt comesOut quiet]
      rfl

end Steps

/-! ## Runs without a budget -/

section Unbounded

variable {setup : Setup} {session : Session}

theorem reasonAfter_unbounded (steps : Nat) :
    session.reasonAfter setup (some 0) none steps =
      match session.stepReason setup steps with
      | some reason => some reason
      | none =>
          if 1 ≤ steps ∧ (session.after setup steps).programCounter ∈ session.breakpoints then
            some .breakpoint
          else none := by
  rw [reasonAfter, breakpoints_after]
  cases session.stepReason setup steps with
  | some reason => rfl
  | none => simp [effectiveBudget]

theorem turns_of_defect {maxSteps polls : Option Int} {steps : Nat} (patience : Nat)
    {defect : Defect} (quiet : session.reasonAfter setup maxSteps polls steps = none)
    (stepped : ((session.after setup steps).step setup).2 = .error defect) :
    turns setup (boundsOf setup.config maxSteps polls) (patience + 1) steps
        (session.after setup steps) =
      (session.after setup (steps + 1), .failed defect) := by
  have failed : (session.after setup steps).step setup =
      (session.after setup (steps + 1), .error defect) := by
    rw [← stepped]
    rfl
  rw [turns, stopBefore_eq (stepReason_of_reasonAfter quiet), quiet]
  simp only [failed]

/-- What a run comes to tells after how many steps. -/
theorem exists_stopsAfter_of_turns {maxSteps polls : Option Int} {patience executed : Nat}
    {final : Session} {reason : StopReason}
    (turned : turns setup (boundsOf setup.config maxSteps polls) patience executed
      (session.after setup executed) = (final, .stopped reason))
    (noReason : session.stepReason setup executed = none)
    (quiet : ∀ earlier < executed, session.reasonAfter setup maxSteps polls earlier = none) :
    ∃ steps, session.StopsAfter setup maxSteps polls steps reason ∧
      final = session.after setup steps := by
  induction patience generalizing executed with
  | zero => cases turned
  | succ patience inductionHypothesis =>
      cases stops : session.reasonAfter setup maxSteps polls executed with
      | some found =>
          rw [turns, stopBefore_eq noReason, stops] at turned
          cases turned
          exact ⟨executed, ⟨stops, quiet⟩, rfl⟩
      | none =>
          have quietToo : ∀ earlier < executed + 1,
              session.reasonAfter setup maxSteps polls earlier = none :=
            Nat.forall_lt_succ_right.2 ⟨quiet, stops⟩
          cases stepped : ((session.after setup executed).step setup).2 with
          | error defect =>
              rw [turns_of_defect patience stops stepped] at turned
              cases turned
          | ok stop =>
              cases stop with
              | some found =>
                  rw [turns_of_reason patience stops stepped] at turned
                  cases turned
                  exact ⟨executed + 1,
                    ⟨reasonAfter_of_stepReason (stepReason_succ stepped), quietToo⟩, rfl⟩
              | none =>
                  rw [turns_of_step patience stops stepped] at turned
                  exact inductionHypothesis turned (stepReason_succ stepped) quietToo

theorem exists_stopsAfter_of_resume {maxSteps polls : Option Int} {patience : Nat}
    {final : Session} {reason : StopReason}
    (ran : session.resume setup patience maxSteps polls = (final, .stopped reason)) :
    ∃ steps, session.StopsAfter setup maxSteps polls steps reason ∧
      final = (session.after setup steps).halt := by
  rw [resume] at ran
  cases turned : turns setup (boundsOf setup.config maxSteps polls) patience 0 session.start with
  | mk reached outcome =>
      rw [turned] at ran
      cases outcome with
      | stopped found =>
          cases ran
          obtain ⟨steps, stops, rfl⟩ := exists_stopsAfter_of_turns turned rfl
            fun earlier impossible => absurd impossible (Nat.not_lt_zero earlier)
          exact ⟨steps, stops, rfl⟩
      | failed defect => cases ran
      | unfinished => cases ran

theorem resume_of_stopsAfter
    (comesOut : ∀ steps, ∃ stop, ((session.after setup steps).step setup).2 = .ok stop)
    {maxSteps polls : Option Int} {steps patience : Nat} {reason : StopReason}
    (stops : session.StopsAfter setup maxSteps polls steps reason) (enough : steps < patience) :
    session.resume setup patience maxSteps polls =
      ((session.after setup steps).halt, .stopped reason) := by
  have turned := turns_of_stopsAfter comesOut stops (Nat.zero_add steps) enough rfl
  have started : session.after setup 0 = session.start := rfl
  rw [started] at turned
  rw [resume, turned]

/-- If there is a reason to stop after so many steps, the run stops after no more than that. -/
theorem exists_stopsAfter_of_reasonAfter {maxSteps polls : Option Int} {steps : Nat}
    {reason : StopReason}
    (isReason : session.reasonAfter setup maxSteps polls steps = some reason) :
    ∃ first ≤ steps, ∃ found, session.StopsAfter setup maxSteps polls first found := by
  induction steps using Nat.strongRecOn generalizing reason with
  | ind steps inductionHypothesis =>
      by_cases earlierReason : ∃ earlier < steps,
          session.reasonAfter setup maxSteps polls earlier ≠ none
      · obtain ⟨earlier, before, some⟩ := earlierReason
        obtain ⟨other, isOther⟩ := Option.ne_none_iff_exists'.1 some
        obtain ⟨first, atMost, found, stops⟩ := inductionHypothesis earlier before isOther
        exact ⟨first, by omega, found, stops⟩
      · refine ⟨steps, Nat.le_refl _, reason, isReason, ?_⟩
        intro earlier before
        by_contra some
        exact earlierReason ⟨earlier, before, some⟩

theorem eq_breakpoint_of_reasonAfter {steps : Nat} {reason : StopReason}
    (quiet : session.stepReason setup steps = none)
    (isReason : session.reasonAfter setup (some 0) none steps = some reason) :
    1 ≤ steps ∧ reason = .breakpoint := by
  rw [reasonAfter_unbounded, quiet] at isReason
  simp only at isReason
  split at isReason
  · rename_i atBreakpoint
    exact ⟨atBreakpoint.1, (Option.some.inj isReason).symm⟩
  · cases isReason

theorem resumeThrough_of_breakpoint {patience times : Nat} {middle : Session}
    (ran : session.resume setup patience (some 0) none = (middle, .stopped .breakpoint)) :
    session.resumeThrough setup patience (times + 1) =
      ((middle.resumeThrough setup patience times).1 + 1,
        (middle.resumeThrough setup patience times).2) := by
  rw [resumeThrough, ran]

theorem resumeThrough_of_other {patience times : Nat} {final : Session} {reason : StopReason}
    (other : reason ≠ .breakpoint)
    (ran : session.resume setup patience (some 0) none = (final, .stopped reason)) :
    session.resumeThrough setup patience (times + 1) = (0, final, .stopped reason) := by
  rw [resumeThrough, ran]
  cases reason with
  | breakpoint => exact absurd rfl other
  | _ => rfl

/-- Resumed as long as it stops at a breakpoint, the session takes so many steps and comes to the
reason; it stops at fewer breakpoints than that. -/
def ComesThrough (setup : Setup) (session : Session) (steps : Nat) (final : Session)
    (reason : StopReason) : Prop :=
  ∃ breaks, breaks + 1 ≤ steps ∧ ∀ times patience, breaks < times → steps < patience →
    session.resumeThrough setup patience times = (breaks, final, .stopped reason)

section ComesThrough

variable (comesOut : ∀ steps, ∃ stop, ((session.after setup steps).step setup).2 = .ok stop)
include comesOut

theorem comesThrough_of_last {steps : Nat} {reason : StopReason} (positive : 1 ≤ steps)
    (other : reason ≠ .breakpoint) (stops : session.StopsAfter setup (some 0) none steps reason) :
    session.ComesThrough setup steps (session.after setup steps).halt reason := by
  refine ⟨0, positive, ?_⟩
  intro times patience more enough
  obtain ⟨fewer, rfl⟩ : ∃ fewer, times = fewer + 1 := ⟨times - 1, by omega⟩
  exact resumeThrough_of_other other (resume_of_stopsAfter comesOut stops enough)

theorem comesThrough_of_breakpoint {first left : Nat} {final : Session} {reason : StopReason}
    (positive : 1 ≤ first) (stops : session.StopsAfter setup (some 0) none first .breakpoint)
    (rest : (session.after setup first).halt.ComesThrough setup left final reason) :
    session.ComesThrough setup (first + left) final reason := by
  obtain ⟨breaks, few, comes⟩ := rest
  refine ⟨breaks + 1, by omega, ?_⟩
  intro times patience more enough
  obtain ⟨fewer, rfl⟩ : ∃ fewer, times = fewer + 1 := ⟨times - 1, by omega⟩
  have ran := resume_of_stopsAfter comesOut stops (by omega : first < patience)
  rw [resumeThrough_of_breakpoint ran, comes fewer patience (by omega) (by omega)]

/-- The steps up to one that gives a reason are cut into runs by the breakpoints among them. -/
theorem comesThrough_of_stepReason {steps : Nat} {reason : StopReason}
    (quiet : ∀ earlier < steps, session.stepReason setup earlier = none)
    (stepped : session.stepReason setup steps = some reason) :
    session.ComesThrough setup steps (session.after setup steps).halt reason := by
  induction steps using Nat.strongRecOn generalizing session with
  | ind steps inductionHypothesis =>
      have isReason : session.reasonAfter setup (some 0) none steps = some reason :=
        reasonAfter_of_stepReason stepped
      obtain ⟨first, atMost, found, stops⟩ := exists_stopsAfter_of_reasonAfter isReason
      rcases Nat.lt_or_eq_of_le atMost with before | rfl
      · -- a breakpoint ends the first run, and the session it leaves takes the steps that are left
        obtain ⟨positive, rfl⟩ := eq_breakpoint_of_reasonAfter (quiet first before) stops.1
        have quietFirst : ∀ earlier ≤ first, session.stepReason setup earlier = none :=
          fun earlier isEarlier => quiet earlier (by omega)
        have sameAfter := after_halt comesOut quietFirst
        have sameReason := stepReason_halt comesOut quietFirst
        obtain ⟨left, rfl⟩ := Nat.exists_eq_add_of_le atMost
        have rest := @inductionHypothesis left (by omega) (session.after setup first).halt
        rw [sameAfter] at rest
        apply comesThrough_of_breakpoint comesOut positive stops
        apply rest
        · intro more
          rw [sameAfter]
          exact comesOut (first + more)
        · intro earlier isEarlier
          rw [sameReason]
          exact quiet (first + earlier) (by omega)
        · rw [sameReason]
          exact stepped
      · rw [stops.1] at isReason
        cases isReason
        have other : reason ≠ .breakpoint := by
          rintro rfl
          exact absurd (isStepReason_of_stepReason stepped) (by decide)
        have positive : 1 ≤ first := by
          cases first with
          | zero => cases stepped
          | succ earlier => exact Nat.le_add_left 1 earlier
        exact comesThrough_of_last comesOut positive other stops

end ComesThrough

end Unbounded

/-- With the standard table, whatever the configuration, the session and the breakpoints: if a run
without a budget and without breakpoints stops, then the run with breakpoints, resumed as long as it
stops at one, stops for the same reason and leaves the same but for the breakpoints themselves.  It
stops at fewer breakpoints than the run takes steps. -/
theorem resumeThrough_standard (config : Config) (session : Session)
    (breakpoints : List UInt16) {patience : Nat} {final : Session} {reason : StopReason}
    (ran : (session.withBreakpoints []).resume { table := .standard, config } patience (some 0)
      none = (final, .stopped reason)) :
    ∃ steps, (session.withBreakpoints []).StopsAfter { table := .standard, config } (some 0) none
        steps reason ∧
      ∃ breaks, breaks + 1 ≤ steps ∧ ∀ times patience, breaks < times → steps < patience →
        (session.withBreakpoints breakpoints).resumeThrough { table := .standard, config } patience
            times =
          (breaks, final.withBreakpoints breakpoints, .stopped reason) := by
  obtain ⟨steps, stops, rfl⟩ := exists_stopsAfter_of_resume ran
  have stepped : session.stepReason { table := .standard, config } steps = some reason := by
    have isReason := stops.1
    rw [reasonAfter_unbounded, stepReason_withBreakpoints] at isReason
    cases found : session.stepReason { table := .standard, config } steps with
    | some other =>
        rw [found] at isReason
        exact isReason
    | none => simp [found, withBreakpoints] at isReason
  have quiet : ∀ earlier < steps,
      session.stepReason { table := .standard, config } earlier = none := by
    intro earlier before
    have noReason := stepReason_of_reasonAfter (stops.2 earlier before)
    rw [stepReason_withBreakpoints] at noReason
    exact noReason
  refine ⟨steps, stops, ?_⟩
  rw [after_withBreakpoints]
  have cut := @comesThrough_of_stepReason { table := .standard, config }
    (session.withBreakpoints breakpoints)
    (step_standard_comesOut config (session.withBreakpoints breakpoints)) steps reason
  simp only [stepReason_withBreakpoints, after_withBreakpoints] at cut
  exact cut quiet stepped

/-- A session that counts the accumulator down from two with `DCR A` and `JNZ 0`, and halts. -/
def beforeCountdown : Session :=
  { Session.initial .standard with
    machine :=
      { Machine.initial with
        registers := { Registers.zeroed with a := 2 }
        memory := ((Memory.blank.write 0 0x3D).write 1 0xC2).write 4 0x76 } }

theorem resumeThrough_standard_of_countdown :
    ∃ final, (beforeCountdown.withBreakpoints []).resume
        { table := .standard, config := .standard } 6 (some 0) none = (final, .stopped .halt) ∧
      ∃ steps, (beforeCountdown.withBreakpoints []).StopsAfter
          { table := .standard, config := .standard } (some 0) none steps .halt ∧
        ∃ breaks, breaks + 1 ≤ steps ∧ ∀ times patience, breaks < times → steps < patience →
          (beforeCountdown.withBreakpoints [0, 1]).resumeThrough
              { table := .standard, config := .standard } patience times =
            (breaks, final.withBreakpoints [0, 1], .stopped .halt) := by
  obtain ⟨final, ran⟩ : ∃ final, (beforeCountdown.withBreakpoints []).resume
      { table := .standard, config := .standard } 6 (some 0) none = (final, .stopped .halt) :=
    ⟨_, rfl⟩
  exact ⟨final, ran, resumeThrough_standard .standard beforeCountdown [0, 1] ran⟩

end Intel8085.Session
