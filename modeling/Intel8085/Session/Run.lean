import Intel8085.Session.Step

/-!
# Runs

A run is a sequence of steps that ends for the first reason to stop.  Before each step the run asks
whether it was cancelled, then whether its budget is used up, and then, unless it is the first step,
whether it stands at a breakpoint.  A budget of zero is none.

A run without a budget need not end, so `turns` takes the number of turns it may take; a run that
is not over by then is `unfinished`.
-/

set_option autoImplicit false

namespace Intel8085

/-- What bounds a run: a budget of steps, and the number of times that the answer is no when the run
asks whether it was cancelled. -/
structure Bounds where
  budget : Option Int
  polls : Option Int
  deriving DecidableEq, Repr

inductive RunOutcome where
  | stopped (reason : StopReason)
  | failed (defect : Defect)
  | unfinished
  deriving DecidableEq, Repr

def Bounds.isCancelled (bounds : Bounds) (executed : Nat) : Bool :=
  bounds.polls.any fun polls => polls ≤ (executed : Int)

def Bounds.isSpent (bounds : Bounds) (executed : Nat) : Bool :=
  bounds.budget.any fun budget => budget ≠ 0 && budget ≤ (executed : Int)

namespace Session

def atBreakpoint (session : Session) : Bool :=
  session.breakpoints.contains session.programCounter

def stopBefore (session : Session) (bounds : Bounds) (executed : Nat) : Option StopReason :=
  if bounds.isCancelled executed then some .cancelled
  else if bounds.isSpent executed then some .budget
  else if executed ≠ 0 && session.atBreakpoint then some .breakpoint
  else none

/-- The turns of a run after `executed` steps, at most `patience` of them. -/
def turns (setup : Setup) (bounds : Bounds) :
    (patience executed : Nat) → Session → Session × RunOutcome
  | 0, _, session => (session, .unfinished)
  | patience + 1, executed, session =>
      match session.stopBefore bounds executed with
      | some reason => (session, .stopped reason)
      | none =>
          match session.step setup with
          | (after, .error defect) => (after, .failed defect)
          | (after, .ok (some reason)) => (after, .stopped reason)
          | (after, .ok none) => turns setup bounds patience (executed + 1) after

/-- The bounds of a run, where the configuration has the budget that the caller does not give. -/
def boundsOf (config : Config) (maxSteps polls : Option Int) : Bounds where
  budget := match maxSteps with
    | some limit => some limit
    | none => config.maxSteps.map Int.ofNat
  polls := polls

def start (session : Session) : Session :=
  { session with halted := false, lastError := none }

def halt (session : Session) : Session :=
  { session with halted := true }

def resume (setup : Setup) (patience : Nat) (maxSteps polls : Option Int) (session : Session) :
    Session × RunOutcome :=
  match turns setup (boundsOf setup.config maxSteps polls) patience 0 session.start with
  | (after, .stopped reason) => (after.halt, .stopped reason)
  | other => other

def run (setup : Setup) (patience : Nat) (maxSteps polls : Option Int) (session : Session) :
    Session × RunOutcome :=
  (session.goTo 0).resume setup patience maxSteps polls

end Session

end Intel8085
