import Intel8085.Proofs.Session.Breakpoints

/-!
# Polls

A run asks its token whether it was cancelled before it looks at anything else, once in every turn.
Here the token is a counter of its own, which only the polls change, and a run passes it on from turn
to turn.  It comes to what a run comes to that compares the number of its steps with the number of
polls (`polledResume_eq`), for a run that stops has asked once more than it took steps, unless its
last step gave the reason, after which there is no poll (`stops_polledResume`).
-/

set_option autoImplicit false

namespace Intel8085

/-- A counter of polls: the answer is no as many times as it says, and yes from then on. -/
structure CancelToken where
  left : Int

def CancelToken.asked (token : CancelToken) : CancelToken where
  left := token.left - 1

def CancelToken.isSet (token : CancelToken) : Bool :=
  token.asked.left < 0

/-- A token that has been asked so many times, if there is one. -/
def CancelToken.after (polls : Option Int) (times : Nat) : Option CancelToken :=
  polls.map fun polls => { left := polls - times }

namespace Session

/-- What a run comes to that passes on its token. -/
structure PolledRun where
  session : Session
  outcome : RunOutcome
  token : Option CancelToken
  executed : Nat

def polledTurns (setup : Setup) (budget : Option Int) :
    (patience executed : Nat) → Option CancelToken → Session → PolledRun
  | 0, executed, token, session => { session, outcome := .unfinished, token, executed }
  | patience + 1, executed, token, session =>
      let asked := token.map CancelToken.asked
      if token.any CancelToken.isSet then
        { session, outcome := .stopped .cancelled, token := asked, executed }
      else
        match session.stopBefore { budget, polls := none } executed with
        | some reason => { session, outcome := .stopped reason, token := asked, executed }
        | none =>
            match session.step setup with
            | (after, .error defect) =>
                { session := after, outcome := .failed defect, token := asked, executed }
            | (after, .ok (some reason)) =>
                { session := after, outcome := .stopped reason, token := asked,
                  executed := executed + 1 }
            | (after, .ok none) => polledTurns setup budget patience (executed + 1) asked after

/-- A run that stopped leaves the session halted. -/
def PolledRun.settled (run : PolledRun) : PolledRun :=
  { run with
    session := match run.outcome with
      | .stopped _ => run.session.halt
      | _ => run.session }

def polledResume (setup : Setup) (patience : Nat) (maxSteps : Option Int) (token : Option CancelToken)
    (session : Session) : PolledRun :=
  (polledTurns setup (boundsOf setup.config maxSteps none).budget patience 0 token
    session.start).settled

/-- The turns of a run that has asked its token once in each of the turns before. -/
def polledFrom (setup : Setup) (bounds : Bounds) (patience executed : Nat) (session : Session) :
    PolledRun :=
  polledTurns setup bounds.budget patience executed (CancelToken.after bounds.polls executed) session

/-- How often a run has asked that stopped after so many steps. -/
def pollsOf (reason : StopReason) (executed : Nat) : Nat :=
  if isStepReason reason then executed else executed + 1

section Turns

variable {setup : Setup} {bounds : Bounds} {session next : Session} {executed : Nat}

theorem asked_after (polls : Option Int) (times : Nat) :
    (CancelToken.after polls times).map CancelToken.asked = CancelToken.after polls (times + 1) := by
  cases polls with
  | none => rfl
  | some polls =>
      simp only [CancelToken.after, Option.map_some, CancelToken.asked, Option.some.injEq,
        CancelToken.mk.injEq]
      omega

theorem isSet_after (bounds : Bounds) (executed : Nat) :
    (CancelToken.after bounds.polls executed).any CancelToken.isSet =
      bounds.isCancelled executed := by
  rw [Bounds.isCancelled, CancelToken.after]
  cases bounds.polls with
  | none => rfl
  | some polls =>
      simp only [Option.map_some, Option.any_some, CancelToken.isSet, CancelToken.asked]
      apply decide_eq_decide.2
      omega

/-- A reason before a step is none that a step gives. -/
theorem isStepReason_of_stopBefore {reason : StopReason}
    (stops : session.stopBefore bounds executed = some reason) : isStepReason reason = false := by
  rw [stopBefore] at stops
  split at stops
  · cases stops
    rfl
  · split at stops
    · cases stops
      rfl
    · split at stops
      · cases stops
        rfl
      · cases stops

/-- The poll comes before everything else. -/
theorem stopBefore_polled :
    session.stopBefore bounds executed =
      if bounds.isCancelled executed then some .cancelled
      else session.stopBefore { budget := bounds.budget, polls := none } executed :=
  rfl

theorem running_of_stopBefore (quiet : session.stopBefore bounds executed = none) :
    bounds.isCancelled executed = false ∧
      session.stopBefore { budget := bounds.budget, polls := none } executed = none := by
  rw [stopBefore_polled] at quiet
  cases cancelled : bounds.isCancelled executed with
  | true =>
      rw [cancelled] at quiet
      cases quiet
  | false =>
      rw [cancelled] at quiet
      exact ⟨rfl, quiet⟩

/-! ## Turns -/

section Polled

variable (patience : Nat) {reason : StopReason}

theorem polledFrom_of_stop (stops : session.stopBefore bounds executed = some reason) :
    polledFrom setup bounds (patience + 1) executed session =
      { session, outcome := .stopped reason, token := CancelToken.after bounds.polls (executed + 1),
        executed } := by
  rw [stopBefore_polled] at stops
  rw [polledFrom, polledTurns, isSet_after, asked_after]
  cases cancelled : bounds.isCancelled executed with
  | true =>
      rw [cancelled] at stops
      cases stops
      rfl
  | false =>
      rw [cancelled, if_neg Bool.false_ne_true] at stops
      simp only [Bool.false_eq_true, if_false, stops]

variable (quiet : session.stopBefore bounds executed = none)
include quiet

theorem polledFrom_of_defect {defect : Defect}
    (stepped : session.step setup = (next, .error defect)) :
    polledFrom setup bounds (patience + 1) executed session =
      { session := next, outcome := .failed defect,
        token := CancelToken.after bounds.polls (executed + 1), executed } := by
  obtain ⟨running, looked⟩ := running_of_stopBefore quiet
  simp only [polledFrom, polledTurns, isSet_after, asked_after, running, looked, stepped,
    Bool.false_eq_true, if_false]

theorem polledFrom_of_reason (stepped : session.step setup = (next, .ok (some reason))) :
    polledFrom setup bounds (patience + 1) executed session =
      { session := next, outcome := .stopped reason,
        token := CancelToken.after bounds.polls (executed + 1), executed := executed + 1 } := by
  obtain ⟨running, looked⟩ := running_of_stopBefore quiet
  simp only [polledFrom, polledTurns, isSet_after, asked_after, running, looked, stepped,
    Bool.false_eq_true, if_false]

theorem polledFrom_of_step (stepped : session.step setup = (next, .ok none)) :
    polledFrom setup bounds (patience + 1) executed session =
      polledFrom setup bounds patience (executed + 1) next := by
  obtain ⟨running, looked⟩ := running_of_stopBefore quiet
  simp only [polledFrom, polledTurns, isSet_after, asked_after, running, looked, stepped,
    Bool.false_eq_true, if_false]

end Polled

/-- A token that was asked once in each turn tells what the number of steps tells. -/
theorem polledFrom_eq (bounds : Bounds) (patience executed : Nat) (session : Session) :
    ((polledFrom setup bounds patience executed session).session,
      (polledFrom setup bounds patience executed session).outcome) =
      turns setup bounds patience executed session := by
  induction patience generalizing executed session with
  | zero => rfl
  | succ patience inductionHypothesis =>
      rw [turns]
      cases stops : session.stopBefore bounds executed with
      | some reason => rw [polledFrom_of_stop patience stops]
      | none =>
          rcases stepped : session.step setup with ⟨after, defect | stop⟩
          · rw [polledFrom_of_defect patience stops stepped]
          · cases stop with
            | some reason => rw [polledFrom_of_reason patience stops stepped]
            | none =>
                rw [polledFrom_of_step patience stops stepped]
                exact inductionHypothesis (executed + 1) after

section Stops

variable {maxSteps polls : Option Int} {reason : StopReason}

/-- The run stopped after the least number of steps with a reason for it, and has asked once in each
turn. -/
structure StopsPolled (setup : Setup) (maxSteps polls : Option Int) (session : Session)
    (reason : StopReason) (run : PolledRun) : Prop where
  stops : session.StopsAfter setup maxSteps polls run.executed reason
  token : run.token = CancelToken.after polls (pollsOf reason run.executed)

/-- What becomes of a run from a turn on before which there was no reason to stop. -/
theorem stops_polledFrom (patience : Nat) (noReason : session.stepReason setup executed = none)
    (quiet : ∀ earlier < executed, session.reasonAfter setup maxSteps polls earlier = none)
    (stopped : (polledFrom setup (boundsOf setup.config maxSteps polls) patience executed
      (session.after setup executed)).outcome = .stopped reason) :
    session.StopsPolled setup maxSteps polls reason
      (polledFrom setup (boundsOf setup.config maxSteps polls) patience executed
        (session.after setup executed)) := by
  induction patience generalizing executed with
  | zero => cases stopped
  | succ patience inductionHypothesis =>
      have looked := @stopBefore_eq setup maxSteps polls session executed noReason
      cases stops : session.reasonAfter setup maxSteps polls executed with
      | some found =>
          rw [stops] at looked
          rw [polledFrom_of_stop patience looked] at stopped ⊢
          cases stopped
          refine ⟨⟨stops, quiet⟩, ?_⟩
          rw [pollsOf, isStepReason_of_stopBefore looked]
          rfl
      | none =>
          rw [stops] at looked
          have quietToo : ∀ earlier < executed + 1,
              session.reasonAfter setup maxSteps polls earlier = none :=
            Nat.forall_lt_succ_right.2 ⟨quiet, stops⟩
          rcases stepped : (session.after setup executed).step setup with ⟨next, defect | stop⟩
          · rw [polledFrom_of_defect patience looked stepped] at stopped
            cases stopped
          · have reached : session.after setup (executed + 1) = next := by
              rw [after, stepped]
            have given := @stepReason_succ setup session executed stop (by rw [stepped])
            cases stop with
            | some found =>
                rw [polledFrom_of_reason patience looked stepped] at stopped ⊢
                cases stopped
                have isOne := (step_comesOut stepped).1
                rw [Option.all_some] at isOne
                refine ⟨⟨reasonAfter_of_stepReason given, quietToo⟩, ?_⟩
                rw [pollsOf, isOne]
                rfl
            | none =>
                rw [polledFrom_of_step patience looked stepped, ← reached] at stopped ⊢
                exact inductionHypothesis given quietToo stopped

end Stops

end Turns

/-! ## Runs -/

section Runs

variable {setup : Setup} {patience : Nat} {maxSteps polls : Option Int} {session : Session}

theorem polledResume_eq :
    ((session.polledResume setup patience maxSteps (CancelToken.after polls 0)).session,
      (session.polledResume setup patience maxSteps (CancelToken.after polls 0)).outcome) =
      session.resume setup patience maxSteps polls := by
  have turned := @polledFrom_eq setup (boundsOf setup.config maxSteps polls) patience 0
    session.start
  have run : session.polledResume setup patience maxSteps (CancelToken.after polls 0) =
      (polledFrom setup (boundsOf setup.config maxSteps polls) patience 0 session.start).settled :=
    rfl
  rw [run, resume, ← turned, PolledRun.settled]
  rcases polledFrom setup (boundsOf setup.config maxSteps polls) patience 0 session.start
    with ⟨after, outcome, token, executed⟩
  cases outcome <;> rfl

theorem stops_polledResume {reason : StopReason}
    (stopped : (session.resume setup patience maxSteps polls).2 = .stopped reason) :
    session.StopsPolled setup maxSteps polls reason
      (session.polledResume setup patience maxSteps (CancelToken.after polls 0)) := by
  rw [← polledResume_eq] at stopped
  have polled := @stops_polledFrom setup session 0 maxSteps polls reason patience rfl
    (fun _ none => absurd none (Nat.not_lt_zero _)) stopped
  exact ⟨polled.stops, polled.token⟩

end Runs

end Session

end Intel8085
