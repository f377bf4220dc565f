import Intel8085.Proofs.Session.Breakpoints

/-!
# Budgets and cancellation

A budget and a poll that answers yes after as many steps bound a run in the same way: the run stops
for the first reason among its steps, or when they are spent.  So a budget that was enough may be
larger, a run that spent its budget may be resumed with another one and comes to what a run with both
comes to, and a cancellation ends a run where a budget does (`run_standard_composes`).
-/

set_option autoImplicit false

namespace Intel8085.Session

/-- The budget, given or else of the configuration, bounds nothing. -/
def IsUnbounded (config : Config) (maxSteps : Option Int) : Prop :=
  ∀ budget, effectiveBudget config maxSteps = some budget → budget = 0

/-- The reason to stop after so many steps of a run that may take `limit` of them and stops for the
reason `spent` when it has. -/
def reasonUpTo (setup : Setup) (limit : Nat) (spent : StopReason) (session : Session)
    (steps : Nat) : Option StopReason :=
  match session.stepReason setup steps with
  | some reason => some reason
  | none =>
      if limit ≤ steps then some spent
      else if 1 ≤ steps ∧ (session.after setup steps).programCounter ∈
          (session.after setup steps).breakpoints then some .breakpoint
      else none

/-- There is a reason to stop after so many steps of at most `limit`, and none after fewer. -/
def StopsUpTo (setup : Setup) (limit : Nat) (spent : StopReason) (session : Session) (steps : Nat)
    (reason : StopReason) : Prop :=
  session.reasonUpTo setup limit spent steps = some reason ∧
    ∀ earlier < steps, session.reasonUpTo setup limit spent earlier = none

/-! ## Bounds of runs -/

section Limits

variable {setup : Setup} {session : Session} {limit steps : Nat} {spent : StopReason}

theorem reasonAfter_of_budget (positive : 1 ≤ limit) (steps : Nat) :
    session.reasonAfter setup (some limit) none steps =
      session.reasonUpTo setup limit .budget steps := by
  have isSpent : ((effectiveBudget setup.config (some (limit : Int))).any fun budget =>
      budget ≠ 0 && (steps : Int) ≥ budget) = decide (limit ≤ steps) := by
    have some : limit ≠ 0 := by omega
    simp [effectiveBudget, some]
  simp only [reasonAfter, reasonUpTo, isSpent, Option.any_none, decide_eq_true_eq]
  rfl

theorem reasonAfter_of_polls {maxSteps : Option Int} (unbounded : IsUnbounded setup.config maxSteps)
    (steps : Nat) :
    session.reasonAfter setup maxSteps (some limit) steps =
      session.reasonUpTo setup limit .cancelled steps := by
  have notSpent : ((effectiveBudget setup.config maxSteps).any fun budget =>
      budget ≠ 0 && (steps : Int) ≥ budget) = false := by
    cases effective : effectiveBudget setup.config maxSteps with
    | none => rfl
    | some budget => simp [unbounded budget effective]
  have isCancelled : (((some (limit : Int)).any fun polls => decide (polls < (steps : Int) + 1)) =
      decide (limit ≤ steps)) := by
    rw [Option.any_some]
    exact decide_eq_decide.2 (by omega)
  simp only [reasonAfter, reasonUpTo, notSpent, isCancelled, decide_eq_true_eq]
  rfl

theorem reasonUpTo_of_stepReason {reason : StopReason}
    (stepped : session.stepReason setup steps = some reason) :
    session.reasonUpTo setup limit spent steps = some reason := by
  rw [reasonUpTo, stepped]

theorem reasonUpTo_of_spent (quiet : session.stepReason setup steps = none)
    (reached : limit ≤ steps) : session.reasonUpTo setup limit spent steps = some spent := by
  simp only [reasonUpTo, quiet, if_pos reached]

/-- Before either limit is reached, limits make no difference. -/
theorem reasonUpTo_of_lt {otherLimit : Nat} {otherSpent : StopReason} (before : steps < limit)
    (beforeOther : steps < otherLimit) :
    session.reasonUpTo setup limit spent steps =
      session.reasonUpTo setup otherLimit otherSpent steps := by
  simp only [reasonUpTo, if_neg (Nat.not_le_of_lt before), if_neg (Nat.not_le_of_lt beforeOther)]

theorem stepReason_of_reasonUpTo (noReason : session.reasonUpTo setup limit spent steps = none) :
    session.stepReason setup steps = none := by
  cases stepped : session.stepReason setup steps with
  | none => rfl
  | some reason =>
      rw [reasonUpTo_of_stepReason stepped] at noReason
      cases noReason

theorem lt_of_reasonUpTo (noReason : session.reasonUpTo setup limit spent steps = none) :
    steps < limit := by
  by_contra reached
  rw [reasonUpTo_of_spent (stepReason_of_reasonUpTo noReason) (Nat.le_of_not_lt reached)] at noReason
  cases noReason

theorem stopsAfter_of_budget (positive : 1 ≤ limit) {reason : StopReason} :
    session.StopsAfter setup (some limit) none steps reason ↔
      session.StopsUpTo setup limit .budget steps reason := by
  simp only [StopsAfter, StopsUpTo, reasonAfter_of_budget positive]

theorem stopsAfter_of_polls {maxSteps : Option Int} (unbounded : IsUnbounded setup.config maxSteps)
    {reason : StopReason} :
    session.StopsAfter setup maxSteps (some limit) steps reason ↔
      session.StopsUpTo setup limit .cancelled steps reason := by
  simp only [StopsAfter, StopsUpTo, reasonAfter_of_polls unbounded]

theorem exists_stopsUpTo_of_budget (positive : 1 ≤ limit) :
    ∃ steps reason, session.StopsUpTo setup limit .budget steps reason := by
  have isReason : ∃ reason, session.reasonUpTo setup limit .budget limit = some reason := by
    cases stepped : session.stepReason setup limit with
    | some reason => exact ⟨reason, reasonUpTo_of_stepReason stepped⟩
    | none => exact ⟨.budget, reasonUpTo_of_spent stepped (Nat.le_refl limit)⟩
  obtain ⟨reason, isReason⟩ := isReason
  rw [← reasonAfter_of_budget positive] at isReason
  obtain ⟨steps, _, found, stops⟩ := exists_stopsAfter_of_reasonAfter isReason
  exact ⟨steps, found, (stopsAfter_of_budget positive).1 stops⟩

/-- A run stops because its steps are spent, or earlier, or for the reason that its last step
gave. -/
theorem stopsUpTo_cases {reason : StopReason}
    (stops : session.StopsUpTo setup limit spent steps reason) :
    (session.stepReason setup steps = none ∧ steps = limit ∧ reason = spent) ∨
      (session.stepReason setup steps = none ∧ steps < limit ∧ reason = .breakpoint) ∨
      (session.stepReason setup steps = some reason ∧ steps ≤ limit) := by
  obtain ⟨isReason, before⟩ := stops
  have within : steps ≤ limit := by
    by_contra beyond
    exact absurd (lt_of_reasonUpTo (before limit (Nat.lt_of_not_le beyond))) (Nat.lt_irrefl limit)
  rw [reasonUpTo] at isReason
  cases stepped : session.stepReason setup steps with
  | some found =>
      rw [stepped] at isReason
      exact Or.inr (Or.inr ⟨isReason, within⟩)
  | none =>
      simp only [stepped] at isReason
      split at isReason
      · rename_i reached
        exact Or.inl ⟨rfl, Nat.le_antisymm within reached, (Option.some.inj isReason).symm⟩
      · rename_i notReached
        split at isReason
        · exact Or.inr (Or.inl
            ⟨rfl, Nat.lt_of_not_le notReached, (Option.some.inj isReason).symm⟩)
        · cases isReason

theorem le_of_stopsUpTo {reason : StopReason}
    (stops : session.StopsUpTo setup limit spent steps reason) : steps ≤ limit := by
  rcases stopsUpTo_cases stops with ⟨_, last, _⟩ | ⟨_, before, _⟩ | ⟨_, within⟩
  · exact Nat.le_of_eq last
  · exact Nat.le_of_lt before
  · exact within

/-- The steps before the stop give no reason, whatever limit is not reached by then. -/
theorem reasonUpTo_before {reason : StopReason} {otherLimit earlier : Nat}
    {otherSpent : StopReason} (stops : session.StopsUpTo setup limit spent steps reason)
    (larger : limit ≤ otherLimit) (before : earlier < steps) :
    session.reasonUpTo setup otherLimit otherSpent earlier = none := by
  have within := le_of_stopsUpTo stops
  rw [reasonUpTo_of_lt (by omega) (by omega : earlier < limit)]
  exact stops.2 earlier before

theorem quiet_of_stopsUpTo {reason : StopReason} {earlier : Nat}
    (stops : session.StopsUpTo setup limit spent steps reason) (before : earlier < steps) :
    session.stepReason setup earlier = none :=
  stepReason_of_reasonUpTo (stops.2 earlier before)

/-- A run that was not stopped by its limit stops in the same way with a larger one. -/
theorem stopsUpTo_larger {reason : StopReason} {larger : Nat} {otherSpent : StopReason}
    (stops : session.StopsUpTo setup limit spent steps reason) (other : reason ≠ spent)
    (atLeast : limit ≤ larger) : session.StopsUpTo setup larger otherSpent steps reason := by
  refine ⟨?_, fun earlier before => reasonUpTo_before stops atLeast before⟩
  rcases stopsUpTo_cases stops with ⟨_, _, isSpent⟩ | ⟨_, before, _⟩ | ⟨stepped, _⟩
  · exact absurd isSpent other
  · rw [reasonUpTo_of_lt (by omega) before]
    exact stops.1
  · exact reasonUpTo_of_stepReason stepped

/-- Where a run spends its steps, it also does for another reason of doing so. -/
theorem stopsUpTo_spent {otherSpent : StopReason} (own : isStepReason spent = false)
    (noBreakpoint : spent ≠ .breakpoint)
    (stops : session.StopsUpTo setup limit spent steps spent) :
    session.stepReason setup steps = none ∧ steps = limit ∧
      session.StopsUpTo setup limit otherSpent steps otherSpent := by
  rcases stopsUpTo_cases stops with ⟨quiet, last, _⟩ | ⟨_, _, impossible⟩ | ⟨stepped, _⟩
  · refine ⟨quiet, last, reasonUpTo_of_spent quiet (Nat.le_of_eq last.symm), ?_⟩
    exact fun earlier before => reasonUpTo_before stops (Nat.le_refl limit) before
  · exact absurd impossible noBreakpoint
  · rw [isStepReason_of_stepReason stepped] at own
    cases own

end Limits

/-! ## Resuming where the budget was spent -/

section Seam

variable {setup : Setup} {session : Session} {steps more : Nat}
  (comesOut : ∀ steps, ∃ stop, ((session.after setup steps).step setup).2 = .ok stop)
  (quiet : ∀ earlier ≤ steps, session.stepReason setup earlier = none)
  (away : (session.after setup steps).programCounter ∉ (session.after setup steps).breakpoints)
include comesOut quiet away

/-- Away from breakpoints it makes no difference that a resumed run does not look for one before its
first step. -/
theorem reasonUpTo_halt (further : Nat) :
    (session.after setup steps).halt.reasonUpTo setup more .budget further =
      session.reasonUpTo setup (steps + more) .budget (steps + further) := by
  have sameBreak : (1 ≤ further ∧ (session.after setup (steps + further)).programCounter ∈
        (session.after setup (steps + further)).breakpoints) ↔
      (1 ≤ steps + further ∧ (session.after setup (steps + further)).programCounter ∈
        (session.after setup (steps + further)).breakpoints) := by
    cases further with
    | zero => exact ⟨fun first => by omega, fun breaks => absurd breaks.2 away⟩
    | succ further => exact and_congr_left' (by omega)
  simp only [reasonUpTo, after_halt comesOut quiet, stepReason_halt comesOut quiet, sameBreak,
    Nat.add_le_add_iff_left]

theorem stopsUpTo_halt {further : Nat} {reason : StopReason}
    (before : ∀ earlier < steps, session.reasonUpTo setup (steps + more) .budget earlier = none)
    (stops : (session.after setup steps).halt.StopsUpTo setup more .budget further reason) :
    session.StopsUpTo setup (steps + more) .budget (steps + further) reason := by
  obtain ⟨isReason, noReason⟩ := stops
  rw [reasonUpTo_halt comesOut quiet away] at isReason
  refine ⟨isReason, ?_⟩
  intro earlier isEarlier
  by_cases inFirst : earlier < steps
  · exact before earlier inFirst
  · obtain ⟨offset, rfl⟩ := Nat.exists_eq_add_of_le (Nat.le_of_not_lt inFirst)
    rw [← reasonUpTo_halt comesOut quiet away]
    exact noReason offset (by omega)

end Seam

/-! ## Runs -/

/-- What the stop of a run with a budget tells of runs with other bounds. -/
structure Composes (config : Config) (session : Session) (budget : Nat) (final : Session)
    (reason : StopReason) : Prop where
  ends : ∀ patience, budget < patience →
    session.run { table := .standard, config } patience (some budget) none =
      (final, .stopped reason)
  larger : reason ≠ .budget → ∀ larger : Nat, budget ≤ larger → ∀ patience, budget < patience →
    session.run { table := .standard, config } patience (some larger) none =
      (final, .stopped reason)
  resumed : reason = .budget → final.programCounter ∉ final.breakpoints →
    ∀ more : Nat, 1 ≤ more → ∃ last ending,
      (∀ patience, more < patience →
        final.resume { table := .standard, config } patience (some more) none =
          (last, .stopped ending)) ∧
      ∀ patience, budget + more < patience →
        session.run { table := .standard, config } patience (some (budget + more : Nat)) none =
          (last, .stopped ending)
  cancelled : ∀ unbounded, IsUnbounded config unbounded → ∀ patience, budget < patience →
    session.run { table := .standard, config } patience unbounded (some budget) =
      (final, .stopped (if reason = .budget then .cancelled else reason))

section Standard

variable {config : Config} {session : Session} {budget steps : Nat} {reason : StopReason}

theorem resume_of_stopsUpTo (positive : 1 ≤ budget)
    (stops : session.StopsUpTo { table := .standard, config } budget .budget steps reason)
    {patience : Nat} (enough : steps < patience) :
    session.resume { table := .standard, config } patience (some budget) none =
      ((session.after { table := .standard, config } steps).halt, .stopped reason) :=
  resume_of_stopsAfter (step_standard_comesOut config session)
    ((stopsAfter_of_budget positive).2 stops) enough

/-- A run that was resumed after it had spent its budget comes to what a run with both budgets comes
to. -/
theorem resume_of_spent
    (stops : session.StopsUpTo { table := .standard, config } budget .budget budget .budget)
    (quiet : session.stepReason { table := .standard, config } budget = none)
    (away : (session.after { table := .standard, config } budget).programCounter ∉
      (session.after { table := .standard, config } budget).breakpoints)
    {more : Nat} (positive : 1 ≤ more) :
    ∃ last ending,
      (∀ patience, more < patience →
        (session.after { table := .standard, config } budget).halt.resume
            { table := .standard, config } patience (some more) none = (last, .stopped ending)) ∧
      ∀ patience, budget + more < patience →
        session.resume { table := .standard, config } patience (some (budget + more : Nat)) none =
          (last, .stopped ending) := by
  have comesOut := step_standard_comesOut config session
  have quietUpTo : ∀ earlier ≤ budget,
      session.stepReason { table := .standard, config } earlier = none := by
    intro earlier atMost
    rcases Nat.lt_or_eq_of_le atMost with before | rfl
    · exact quiet_of_stopsUpTo stops before
    · exact quiet
  obtain ⟨further, ending, stopsAgain⟩ := @exists_stopsUpTo_of_budget
    { table := .standard, config } (session.after { table := .standard, config } budget).halt more
    positive
  have within := le_of_stopsUpTo stopsAgain
  have stopsOnce := stopsUpTo_halt comesOut quietUpTo away
    (fun earlier before => reasonUpTo_before stops (Nat.le_add_right budget more) before) stopsAgain
  refine ⟨(session.after { table := .standard, config } (budget + further)).halt, ending, ?_, ?_⟩
  · intro patience enough
    rw [resume_of_stopsUpTo positive stopsAgain (by omega), after_halt comesOut quietUpTo]
  · intro patience enough
    exact resume_of_stopsUpTo (by omega) stopsOnce (by omega)

end Standard

/-- With the standard table, whatever the configuration, the session and its breakpoints: a run with a
budget stops.  If it did not spend the budget, it stops in the same way with any larger one; if it
did, and does not stand at a breakpoint, resuming it with more comes to what a run with both comes to;
and a run that only a cancellation bounds ends where the run with that budget does. -/
theorem run_standard_composes (config : Config) (session : Session) {budget : Nat}
    (positive : 1 ≤ budget) : ∃ final reason, session.Composes config budget final reason := by
  obtain ⟨steps, reason, stops⟩ := @exists_stopsUpTo_of_budget { table := .standard, config }
    (session.goTo 0) budget positive
  have comesOut := step_standard_comesOut config (session.goTo 0)
  have within := le_of_stopsUpTo stops
  refine ⟨((session.goTo 0).after { table := .standard, config } steps).halt, reason, ?_, ?_, ?_, ?_⟩
  · intro patience enough
    exact resume_of_stopsUpTo positive stops (by omega)
  · intro other larger atLeast patience enough
    exact resume_of_stopsUpTo (by omega) (stopsUpTo_larger stops other atLeast) (by omega)
  · rintro rfl away more morePositive
    obtain ⟨quiet, rfl, _⟩ := @stopsUpTo_spent _ _ _ _ _ .budget rfl (by decide) stops
    exact resume_of_spent stops quiet away morePositive
  · intro unbounded isUnbounded patience enough
    apply resume_of_stopsAfter comesOut _ (by omega)
    apply (stopsAfter_of_polls isUnbounded).2
    split
    · rename_i isBudget
      subst isBudget
      exact (stopsUpTo_spent rfl (by decide) stops).2.2
    · rename_i other
      exact stopsUpTo_larger stops other (Nat.le_refl budget)

/-- A countdown with a breakpoint at the `HLT` behind it: two steps spend a budget of two, and with
three more the run reaches the breakpoint. -/
theorem run_standard_composes_of_countdown :
    1 ≤ 2 ∧ ∃ final last,
      (beforeCountdown.withBreakpoints [4]).run { table := .standard, config := .standard } 3
        (some 2) none = (final, .stopped .budget) ∧
      final.programCounter ∉ final.breakpoints ∧
      final.resume { table := .standard, config := .standard } 4 (some 3) none =
        (last, .stopped .breakpoint) ∧
      (beforeCountdown.withBreakpoints [4]).run { table := .standard, config := .standard } 6
        (some 5) none = (last, .stopped .breakpoint) ∧
      (beforeCountdown.withBreakpoints [4]).run { table := .standard, config := .standard } 3
        (some 0) (some 2) = (final, .stopped .cancelled) := by
  obtain ⟨final, reason, composes⟩ := run_standard_composes .standard
    (beforeCountdown.withBreakpoints [4]) (by decide : 1 ≤ 2)
  obtain ⟨spentThere, ran, away⟩ : ∃ spentThere,
      (beforeCountdown.withBreakpoints [4]).run { table := .standard, config := .standard } 3
        (some 2) none = (spentThere, .stopped .budget) ∧
      spentThere.programCounter ∉ spentThere.breakpoints := ⟨_, rfl, by decide⟩
  obtain ⟨rfl, rfl⟩ : final = spentThere ∧ reason = .budget := by
    have same := (composes.ends 3 (by decide)).symm.trans ran
    cases same
    exact ⟨rfl, rfl⟩
  obtain ⟨last, ending, resumed, whole⟩ := composes.resumed rfl away 3 (by decide)
  obtain ⟨stopped, ranOn⟩ : ∃ stopped,
      (beforeCountdown.withBreakpoints [4]).run { table := .standard, config := .standard } 6
        (some 5) none = (stopped, .stopped .breakpoint) := ⟨_, rfl⟩
  obtain ⟨rfl, rfl⟩ : last = stopped ∧ ending = .breakpoint := by
    have same := (whole 6 (by decide)).symm.trans ranOn
    cases same
    exact ⟨rfl, rfl⟩
  have unbounded : IsUnbounded .standard (some 0) := by
    intro found isFound
    exact (Option.some.inj isFound).symm
  exact ⟨by decide, final, last, ran, away, resumed 4 (by decide), ranOn,
    composes.cancelled (some 0) unbounded 3 (by decide)⟩

end Intel8085.Session
