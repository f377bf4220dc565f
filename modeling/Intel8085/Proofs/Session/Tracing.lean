import Intel8085.Proofs.Session.Outcomes
import Intel8085.Proofs.Session.Reading
import Intel8085.Proofs.Session.Requests

/-!
# Tracing

Tracing only observes: sessions that differ in no more than their traces do the same and answer the
same, unless they are asked for the trace itself.  While the trace is on, each step that is completed
puts one line in, which tells of the session before the step; the trace has the last of these lines
(`performAll_standard_traced`).
-/

set_option autoImplicit false

namespace Intel8085

open Intel8085.Text Intel8085.Disassembly

/-- The request is answered from the trace. -/
def Request.readsTrace : Request → Bool
  | .getTrace => true
  | _ => false

/-- The request neither switches the trace off nor empties it. -/
def Request.keepsTrace : Request → Bool
  | .reset => false
  | .clearTrace => false
  | .setTracing value => value
  | _ => true

namespace Session

/-- The sessions differ in no more than the trace and its switch. -/
def SameButTrace (session other : Session) : Prop :=
  ∃ tracing trace, other = session.withTrace tracing trace

/-- The answers are the same, and the sessions that are left are the same but for the trace. -/
def ComesOutAlike {Answer : Type} (result other : Session × Answer) : Prop :=
  ∃ tracing trace, other = (result.1.withTrace tracing trace, result.2)

/-! ## Sessions with other traces -/

section Alike

variable {config : Config} {session other : Session}

theorem finish_alike (same : SameButTrace session other) (line : TraceLine) (effect : Effect) :
    ComesOutAlike (session.finish line effect) (other.finish line effect) := by
  obtain ⟨tracing, trace, rfl⟩ := same
  unfold finish
  cases effect.ending with
  | fault fault => exact ⟨tracing, _, rfl⟩
  | defect defect => exact ⟨tracing, _, rfl⟩
  | halt => exact ⟨tracing, _, rfl⟩
  | proceed next =>
      cases next with
      | none => exact ⟨tracing, _, rfl⟩
      | some address =>
          by_cases beyond : 0xFFFF < address
          · simp only [if_pos beyond]
            exact ⟨tracing, _, rfl⟩
          · simp only [if_neg beyond]
            exact ⟨tracing, _, rfl⟩

theorem attempt_alike (same : SameButTrace session other) :
    ComesOutAlike (session.attempt { table := .standard, config })
      (other.attempt { table := .standard, config }) := by
  obtain ⟨tracing, trace, rfl⟩ := same
  cases fetches : session.machine.memory.fetch { table := .standard, config }
      session.programCounter with
  | error fault =>
      have refused : (session.withTrace tracing trace).machine.memory.fetch
          { table := .standard, config } (session.withTrace tracing trace).programCounter =
            .error fault := fetches
      rw [attempt_of_not_fetched fetches, attempt_of_not_fetched refused]
      exact ⟨tracing, trace, rfl⟩
  | ok fetched =>
      have fetchesToo : (session.withTrace tracing trace).machine.memory.fetch
          { table := .standard, config } (session.withTrace tracing trace).programCounter =
            .ok fetched := fetches
      obtain ⟨narrow, _⟩ := fetch_standard fetches
      rw [attempt_of_fetched fetches, attempt_of_fetched fetchesToo, carryOut_of_narrow narrow,
        carryOut_of_narrow narrow]
      exact finish_alike ⟨tracing, trace, rfl⟩ _ _

theorem step_alike (same : SameButTrace session other) :
    ComesOutAlike (session.step { table := .standard, config })
      (other.step { table := .standard, config }) := by
  obtain ⟨tracing, trace, alike⟩ := @attempt_alike config session other same
  rw [step, step, alike]
  rcases session.attempt { table := .standard, config } with ⟨after, outcome⟩
  cases outcome <;> exact ⟨tracing, trace, rfl⟩

theorem stepsFrom_alike (found : List (Option StopReason × Registers)) (count : Nat)
    (same : SameButTrace session other) :
    ComesOutAlike (session.stepsFrom { table := .standard, config } found count)
      (other.stepsFrom { table := .standard, config } found count) := by
  induction count generalizing found session other with
  | zero =>
      obtain ⟨tracing, trace, rfl⟩ := same
      exact ⟨tracing, trace, rfl⟩
  | succ count inductionHypothesis =>
      obtain ⟨tracing, trace, alike⟩ := @step_alike config session other same
      rw [stepsFrom, stepsFrom, alike]
      rcases session.step { table := .standard, config } with ⟨after, result⟩
      cases result with
      | error defect => exact ⟨tracing, trace, rfl⟩
      | ok stop =>
          cases stop with
          | some reason => exact ⟨tracing, trace, rfl⟩
          | none => exact inductionHypothesis _ ⟨tracing, trace, rfl⟩

theorem turns_alike (bounds : Bounds) (patience executed : Nat)
    (same : SameButTrace session other) :
    ComesOutAlike (turns { table := .standard, config } bounds patience executed session)
      (turns { table := .standard, config } bounds patience executed other) := by
  -- on the turns that are left; what a turn looks at before its step is no trace
  induction patience generalizing executed session other with
  | zero =>
      obtain ⟨tracing, trace, rfl⟩ := same
      exact ⟨tracing, trace, rfl⟩
  | succ patience inductionHypothesis =>
      have stops : other.stopBefore bounds executed = session.stopBefore bounds executed := by
        obtain ⟨tracing, trace, rfl⟩ := same
        rfl
      obtain ⟨tracing, trace, alike⟩ := @step_alike config session other same
      rw [turns, turns, stops]
      cases session.stopBefore bounds executed with
      | some reason =>
          obtain ⟨tracing, trace, rfl⟩ := same
          exact ⟨tracing, trace, rfl⟩
      | none =>
          simp only
          rw [alike]
          rcases session.step { table := .standard, config } with ⟨after, result⟩
          cases result with
          | error defect => exact ⟨tracing, trace, rfl⟩
          | ok stop =>
              cases stop with
              | some reason => exact ⟨tracing, trace, rfl⟩
              | none => exact inductionHypothesis (executed + 1) ⟨tracing, trace, rfl⟩

theorem resume_alike (patience : Nat) (maxSteps polls : Option Int)
    (same : SameButTrace session other) :
    ComesOutAlike (session.resume { table := .standard, config } patience maxSteps polls)
      (other.resume { table := .standard, config } patience maxSteps polls) := by
  have started : SameButTrace session.start other.start := by
    obtain ⟨tracing, trace, rfl⟩ := same
    exact ⟨tracing, trace, rfl⟩
  obtain ⟨tracing, trace, alike⟩ :=
    @turns_alike config _ _ (boundsOf config maxSteps polls) patience 0 started
  rw [resume, resume, alike]
  rcases turns { table := .standard, config } (boundsOf config maxSteps polls) patience 0
    session.start with ⟨after, outcome⟩
  cases outcome <;> exact ⟨tracing, trace, rfl⟩

theorem answerRun_alike {result other : Session × RunOutcome} (alike : ComesOutAlike result other) :
    ComesOutAlike (answerRun result) (answerRun other) := by
  obtain ⟨tracing, trace, rfl⟩ := alike
  rcases result with ⟨after, outcome⟩
  cases outcome <;> exact ⟨tracing, trace, rfl⟩

theorem perform_alike_of_isExecution (patience : Nat) {request : Request}
    (execution : request.isExecution = true) (same : SameButTrace session other) :
    ComesOutAlike (session.perform { table := .standard, config } patience request)
      (other.perform { table := .standard, config } patience request) := by
  cases request with
  | step =>
      obtain ⟨tracing, trace, alike⟩ := @step_alike config session other same
      rw [perform, perform, alike]
      rcases session.step { table := .standard, config } with ⟨after, result⟩
      cases result <;> exact ⟨tracing, trace, rfl⟩
  | attempt =>
      obtain ⟨tracing, trace, alike⟩ := @attempt_alike config session other same
      rw [perform, perform, alike]
      rcases session.attempt { table := .standard, config } with ⟨after, outcome⟩
      cases outcome <;> exact ⟨tracing, trace, rfl⟩
  | steps count =>
      obtain ⟨tracing, trace, alike⟩ := @stepsFrom_alike config session other [] count same
      rw [perform, perform, alike]
      rcases session.stepsFrom { table := .standard, config } [] count with ⟨after, result⟩
      cases result <;> exact ⟨tracing, trace, rfl⟩
  | run maxSteps polls =>
      have started : SameButTrace (session.goTo 0) (other.goTo 0) := by
        obtain ⟨tracing, trace, rfl⟩ := same
        exact ⟨tracing, trace, rfl⟩
      exact answerRun_alike (resume_alike patience maxSteps polls started)
  | resume maxSteps polls => exact answerRun_alike (resume_alike patience maxSteps polls same)
  | _ => cases execution

theorem perform_alike (patience : Nat) {request : Request} (unread : request.readsTrace = false)
    (same : SameButTrace session other) :
    ComesOutAlike (session.perform { table := .standard, config } patience request)
      (other.perform { table := .standard, config } patience request) := by
  obtain ⟨tracing, trace, rfl⟩ := same
  cases request using Request.byKind with
  | execution request execution =>
      exact perform_alike_of_isExecution patience execution ⟨tracing, trace, rfl⟩
  | access request access =>
      exact ⟨tracing, trace, (accesses_of_isAccess _ patience access session).unseen tracing trace⟩
  | reset => exact ⟨tracing, .empty trace.limit, rfl⟩
  | addBreakpoint address => exact ⟨tracing, trace, rfl⟩
  | removeBreakpoint address => exact ⟨tracing, trace, rfl⟩
  | clearBreakpoints => exact ⟨tracing, trace, rfl⟩
  | setTracing value => exact ⟨value, trace, rfl⟩
  | getTrace => cases unread
  | clearTrace => exact ⟨tracing, .empty trace.limit, rfl⟩

theorem performAll_alike (patience : Nat) {requests : List Request}
    (unread : ∀ request ∈ requests, request.readsTrace = false)
    (same : SameButTrace session other) :
    ComesOutAlike (session.performAll { table := .standard, config } patience requests)
      (other.performAll { table := .standard, config } patience requests) := by
  induction requests generalizing session other with
  | nil =>
      obtain ⟨tracing, trace, rfl⟩ := same
      exact ⟨tracing, trace, rfl⟩
  | cons request rest inductionHypothesis =>
      obtain ⟨unreadFirst, unreadRest⟩ := List.forall_mem_cons.1 unread
      obtain ⟨tracing, trace, alike⟩ :=
        @perform_alike config session other patience request unreadFirst same
      rcases performed : session.perform { table := .standard, config } patience request with
        ⟨after, answer⟩
      rw [performed] at alike
      have left : SameButTrace after (after.withTrace tracing trace) := ⟨tracing, trace, rfl⟩
      obtain ⟨lastTracing, lastTrace, alikeRest⟩ := inductionHypothesis unreadRest left
      refine ⟨lastTracing, lastTrace, ?_⟩
      simp only [performAll, alike, performed, alikeRest]

end Alike

/-! ## Recorded steps -/

def shownTrace (session : Session) : List String :=
  session.trace.toList.map TraceLine.display

/-- The step that starts at the session is completed, with a reason to stop or without one. -/
def isCompleted (setup : Setup) (session : Session) : Bool :=
  match (session.attempt setup).2 with
  | .completed _ => true
  | _ => false

/-- The line tells of the session: where it stands, how disassembly reads the instruction there, and
what the registers hold. -/
def IsToldBy (setup : Setup) (session : Session) (told : String) : Prop :=
  ∃ line, session.decodedLine setup = .ok (some line) ∧
    told = "$" ++ hexText 4 session.programCounter.toNat ++ ": " ++
      padded TraceLine.instructionWidth line.text ++ " " ++ session.machine.registers.display

/-- With the trace on, the steps that started at these sessions, one after the other, are recorded:
one line for each that was completed. -/
structure Records (setup : Setup) (session : Session) (starts : List Session) (after : Session) :
    Prop where
  tracing : after.tracing = true
  limit : after.trace.limit = session.trace.limit
  steps : after.steps = session.steps + (starts.filter (isCompleted setup)).length
  shown : ∃ lines, List.Forall₂ (IsToldBy setup) (starts.filter (isCompleted setup)) lines ∧
    after.shownTrace = Recent.lastItems session.trace.limit (session.shownTrace ++ lines)

/-- The sessions at which the steps of a run start. -/
def startsOfTurns (setup : Setup) (bounds : Bounds) :
    (patience executed : Nat) → Session → List Session
  | 0, _, _ => []
  | patience + 1, executed, session =>
      match session.stopBefore bounds executed with
      | some _ => []
      | none =>
          match session.step setup with
          | (after, .ok none) =>
              session :: startsOfTurns setup bounds patience (executed + 1) after
          | _ => [session]

def startsOfSteps (setup : Setup) : (count : Nat) → Session → List Session
  | 0, _ => []
  | count + 1, session =>
      match session.step setup with
      | (after, .ok none) => session :: startsOfSteps setup count after
      | _ => [session]

/-- The sessions at which the steps start that are taken to do what a host asks for. -/
def starts (setup : Setup) (patience : Nat) (request : Request) (session : Session) :
    List Session :=
  match request with
  | .step => [session]
  | .attempt => [session]
  | .steps count => session.startsOfSteps setup count
  | .run maxSteps polls =>
      startsOfTurns setup (boundsOf setup.config maxSteps polls) patience 0 (session.goTo 0).start
  | .resume maxSteps polls =>
      startsOfTurns setup (boundsOf setup.config maxSteps polls) patience 0 session.start
  | _ => []

def startsOfAll (setup : Setup) (patience : Nat) : List Request → Session → List Session
  | [], _ => []
  | request :: rest, session =>
      session.starts setup patience request ++
        startsOfAll setup patience rest (session.perform setup patience request).1

section Records

variable {setup : Setup} {session middle after : Session} {starts : List Session}

theorem shownTrace_last : Recent.lastItems session.trace.limit session.shownTrace =
    session.shownTrace := by
  rw [shownTrace, ← Recent.lastItems_map, Recent.lastItems_toList]

theorem records_of_same (tracing : after.tracing = true) (trace : after.trace = session.trace)
    (steps : after.steps = session.steps) : Records setup session [] after where
  tracing := tracing
  limit := congrArg Recent.limit trace
  steps := steps
  shown := by
    refine ⟨[], .nil, ?_⟩
    rw [List.append_nil, shownTrace_last, shownTrace, shownTrace, trace]

theorem Records.trans {later : List Session} (first : Records setup session starts middle)
    (second : Records setup middle later after) :
    Records setup session (starts ++ later) after where
  tracing := second.tracing
  limit := second.limit.trans first.limit
  steps := by
    rw [second.steps, first.steps, List.filter_append, List.length_append, Nat.add_assoc]
  shown := by
    obtain ⟨lines, told, shown⟩ := first.shown
    obtain ⟨more, toldMore, shownMore⟩ := second.shown
    refine ⟨lines ++ more, ?_, ?_⟩
    · rw [List.filter_append]
      exact List.rel_append told toldMore
    · rw [shownMore, shown, first.limit, Recent.lastItems_append, List.append_assoc]

/-- The trace tells nothing of the halt and the last error that are set behind a step. -/
theorem Records.marked (recorded : Records setup session starts after) (halted : Bool)
    (lastError : Option Fault) :
    Records setup session starts { after with halted, lastError } := by
  have marks : Records setup after [] { after with halted, lastError } :=
    records_of_same recorded.tracing rfl rfl
  have both := recorded.trans marks
  rwa [List.append_nil] at both

end Records

section Standard

variable {config : Config} {session after : Session}

theorem records_attempt (tracing : session.tracing = true) :
    Records { table := .standard, config } session [session]
      (session.attempt { table := .standard, config }).1 := by
  rcases attempt_standard_cases config session with
    ⟨fault, faults⟩ | ⟨after, stop, completes, _, _, counted⟩
  · have notCompleted : [session].filter (isCompleted { table := .standard, config }) = [] := by
      simp [isCompleted, faults]
    rw [faults]
    refine ⟨tracing, rfl, ?_, [], ?_, ?_⟩
    · rw [notCompleted]
      rfl
    · rw [notCompleted]
      exact .nil
    · rw [List.append_nil, shownTrace_last]
  · have completed : [session].filter (isCompleted { table := .standard, config }) = [session] := by
      simp [isCompleted, completes]
    -- the line was made from the session before the step, so disassembly of that session reads it
    rcases attempt_cases config session with ⟨fault, faults⟩ | ⟨form, found, fits, attempts⟩
    · rw [completes] at faults
      cases faults
    · have narrow := narrow_of_form found
      obtain ⟨machine, halted, rfl⟩ := finish_completed_leaves (attempts.symm.trans completes)
      have pushed : (session.record (session.traceLine (session.fetched config form))).trace =
          session.trace.push (session.traceLine (session.fetched config form)) := if_pos tracing
      rw [completes]
      refine ⟨tracing, ?_, ?_,
        [(session.traceLine (session.fetched config form)).display], ?_, ?_⟩
      · exact (congrArg Recent.limit pushed).trans (Recent.limit_push _ _)
      · rw [completed]
        rfl
      · rw [completed]
        exact .cons ⟨_, decodedLine_of_fits found narrow fits, display_traceLine narrow fits⟩ .nil
      · rw [shownTrace]
        simp only [pushed]
        rw [Recent.toList_push, Recent.lastItems_map, List.map_append]
        rfl

theorem records_step (tracing : session.tracing = true) {result : Except Defect (Option StopReason)}
    (stepped : session.step { table := .standard, config } = (after, result)) :
    Records { table := .standard, config } session [session] after := by
  have recorded := @records_attempt config session tracing
  rw [step] at stepped
  rcases attempted : session.attempt { table := .standard, config } with ⟨reached, outcome⟩
  rw [attempted] at stepped recorded
  cases outcome with
  | completed stop =>
      cases stepped
      exact recorded
  | fault fault =>
      cases stepped
      exact recorded.marked true (some fault)
  | defect defect =>
      cases stepped
      exact recorded

theorem records_stepsFrom (found : List (Option StopReason × Registers)) (count : Nat)
    (tracing : session.tracing = true) :
    Records { table := .standard, config } session
      (session.startsOfSteps { table := .standard, config } count)
      (session.stepsFrom { table := .standard, config } found count).1 := by
  induction count generalizing found session with
  | zero => exact records_of_same tracing rfl rfl
  | succ count inductionHypothesis =>
      rw [startsOfSteps, stepsFrom]
      rcases stepped : session.step { table := .standard, config } with ⟨after, result⟩
      have recorded := records_step tracing stepped
      cases result with
      | error defect => exact recorded
      | ok stop =>
          cases stop with
          | some reason => exact recorded
          | none => exact recorded.trans (inductionHypothesis _ recorded.tracing)

theorem records_turns (bounds : Bounds) (patience executed : Nat)
    (tracing : session.tracing = true) :
    Records { table := .standard, config } session
      (startsOfTurns { table := .standard, config } bounds patience executed session)
      (turns { table := .standard, config } bounds patience executed session).1 := by
  -- each turn records its own step, and what it leaves still has the trace on
  induction patience generalizing executed session with
  | zero => exact records_of_same tracing rfl rfl
  | succ patience inductionHypothesis =>
      rw [startsOfTurns, turns]
      cases session.stopBefore bounds executed with
      | some reason => exact records_of_same tracing rfl rfl
      | none =>
          simp only
          rcases stepped : session.step { table := .standard, config } with ⟨after, result⟩
          have recorded := records_step tracing stepped
          cases result with
          | error defect => exact recorded
          | ok stop =>
              cases stop with
              | some reason => exact recorded
              | none => exact recorded.trans (inductionHypothesis (executed + 1) recorded.tracing)

theorem records_resume (patience : Nat) (maxSteps polls : Option Int)
    (tracing : session.tracing = true) :
    Records { table := .standard, config } session
      (startsOfTurns { table := .standard, config } (boundsOf config maxSteps polls) patience 0
        session.start)
      (session.resume { table := .standard, config } patience maxSteps polls).1 := by
  have started : Records { table := .standard, config } session [] session.start :=
    records_of_same tracing rfl rfl
  have turned := started.trans
    (records_turns (boundsOf config maxSteps polls) patience 0 started.tracing)
  rw [resume]
  rcases reached : turns { table := .standard, config } (boundsOf config maxSteps polls) patience 0
    session.start with ⟨last, outcome⟩
  rw [reached] at turned
  cases outcome with
  | stopped reason => exact turned.marked true last.lastError
  | failed defect => exact turned
  | unfinished => exact turned

theorem records_of_isExecution (patience : Nat) {request : Request}
    (execution : request.isExecution = true) (tracing : session.tracing = true) :
    Records { table := .standard, config } session
      (session.starts { table := .standard, config } patience request)
      (session.perform { table := .standard, config } patience request).1 := by
  cases request with
  | step =>
      rw [left_step]
      exact records_step tracing rfl
  | attempt =>
      rw [left_attempt]
      exact records_attempt tracing
  | steps count =>
      rw [left_steps]
      exact records_stepsFrom [] count tracing
  | run maxSteps polls =>
      have started : Records { table := .standard, config } session [] (session.goTo 0) :=
        records_of_same tracing rfl rfl
      rw [left_run]
      exact started.trans (records_resume patience maxSteps polls started.tracing)
  | resume maxSteps polls =>
      rw [left_resume]
      exact records_resume patience maxSteps polls tracing
  | _ => cases execution

theorem starts_of_isAccess {setup : Setup} {patience : Nat} {request : Request}
    (access : request.isAccess = true) : session.starts setup patience request = [] := by
  cases request with
  | step => cases access
  | attempt => cases access
  | steps count => cases access
  | run maxSteps polls => cases access
  | resume maxSteps polls => cases access
  | _ => rfl

theorem records_perform (patience : Nat) {request : Request} (keeps : request.keepsTrace = true)
    (tracing : session.tracing = true) :
    Records { table := .standard, config } session
      (session.starts { table := .standard, config } patience request)
      (session.perform { table := .standard, config } patience request).1 := by
  cases request using Request.byKind with
  | execution request execution => exact records_of_isExecution patience execution tracing
  | access request access =>
      obtain ⟨machine, halted, edited⟩ :=
        (accesses_of_isAccess { table := .standard, config } patience access session).edits
      rw [starts_of_isAccess access, edited]
      exact records_of_same tracing rfl rfl
  | reset => cases keeps
  | addBreakpoint address => exact records_of_same tracing rfl rfl
  | removeBreakpoint address => exact records_of_same tracing rfl rfl
  | clearBreakpoints => exact records_of_same tracing rfl rfl
  | setTracing value => exact records_of_same keeps rfl rfl
  | getTrace => exact records_of_same tracing rfl rfl
  | clearTrace => cases keeps

theorem records_performAll (patience : Nat) {requests : List Request}
    (keeps : ∀ request ∈ requests, request.keepsTrace = true) (tracing : session.tracing = true) :
    Records { table := .standard, config } session
      (session.startsOfAll { table := .standard, config } patience requests)
      (session.performAll { table := .standard, config } patience requests).1 := by
  induction requests generalizing session with
  | nil => exact records_of_same tracing rfl rfl
  | cons request rest inductionHypothesis =>
      obtain ⟨keepsFirst, keepsRest⟩ := List.forall_mem_cons.1 keeps
      have recorded := @records_perform config session patience request keepsFirst tracing
      exact recorded.trans (inductionHypothesis keepsRest recorded.tracing)

end Standard

/-- With the standard table, whatever the configuration, the session and what the host asks for:
answers and sessions are the same with another trace and with the trace on or off, as long as nobody
reads the trace.  While it is on, from an empty trace that nobody empties, it has the last lines, as
many as its limit says, of those that tell of the completed steps in their order, one for each. -/
theorem performAll_standard_traced (config : Config) (session : Session) (patience : Nat)
    (requests : List Request) :
    ((∀ request ∈ requests, request.readsTrace = false) → ∀ tracing trace,
      ComesOutAlike (session.performAll { table := .standard, config } patience requests)
        ((session.withTrace tracing trace).performAll { table := .standard, config } patience
          requests)) ∧
    (session.tracing = true → session.trace = .empty config.traceLimit →
      (∀ request ∈ requests, request.keepsTrace = true) →
        ∃ lines, List.Forall₂ (IsToldBy { table := .standard, config })
            ((session.startsOfAll { table := .standard, config } patience requests).filter
              (isCompleted { table := .standard, config })) lines ∧
          (session.performAll { table := .standard, config } patience requests).1.shownTrace =
            Recent.lastItems config.traceLimit lines ∧
          (session.performAll { table := .standard, config } patience requests).1.steps =
            session.steps + lines.length) := by
  refine ⟨?_, ?_⟩
  · intro unread tracing trace
    exact performAll_alike patience unread ⟨tracing, trace, rfl⟩
  · intro tracing empty keeps
    have recorded := @records_performAll config session patience requests keeps tracing
    obtain ⟨lines, told, shown⟩ := recorded.shown
    have nothing : session.shownTrace = [] := by
      rw [shownTrace, empty]
      rfl
    have limit : session.trace.limit = config.traceLimit := by rw [empty]; rfl
    rw [nothing, List.nil_append, limit] at shown
    exact ⟨lines, told, shown, by rw [recorded.steps, told.length_eq]⟩

/-- The standard configuration, but with a trace of two lines that is on. -/
def shortTrace : Config :=
  { Config.standard with trace := true, traceLimit := 2 }

/-- A session that stands before two `NOP` and a `DAA`, which is not modelled. -/
def beforeDecimalAdjust : Session :=
  { Session.initial shortTrace with
    machine := { Machine.initial with memory := Memory.blank.write 2 0x27 } }

theorem performAll_standard_traced_of_decimalAdjust :
    ComesOutAlike
      (beforeDecimalAdjust.performAll { table := .standard, config := shortTrace } 4
        [.run none none, .setPart .programCounter 0, .step])
      ((beforeDecimalAdjust.withTrace false (.empty 0)).performAll
        { table := .standard, config := shortTrace } 4
        [.run none none, .setPart .programCounter 0, .step]) ∧
    ∃ lines, lines.length = 3 ∧
      (beforeDecimalAdjust.performAll { table := .standard, config := shortTrace } 4
        [.run none none, .setPart .programCounter 0, .step]).1.shownTrace =
          Recent.lastItems 2 lines := by
  obtain ⟨alike, traced⟩ := performAll_standard_traced shortTrace beforeDecimalAdjust 4
    [.run none none, .setPart .programCounter 0, .step]
  obtain ⟨lines, told, shown, _⟩ := traced rfl rfl (by decide)
  exact ⟨alike (by decide) false (.empty 0), lines, told.length_eq.symm, shown⟩

end Session

end Intel8085
