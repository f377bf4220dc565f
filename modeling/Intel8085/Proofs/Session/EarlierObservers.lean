import Intel8085.Proofs.Session.PortObservers

/-!
# Observers from earlier

Two sessions that differ in no more than this, that one of them has some more observers, which were
registered before all others, and that its journal is another one, cannot be told apart by their
answers.  Whatever is done to both (`Session.Announces`), there is one list of changes from which both
journals follow: where the one session tells its observers of a change, the other one tells the earlier
observers of the port, and then the same observers (`exists_announces_performAll`).
-/

set_option autoImplicit false

namespace Intel8085

/-- The observer that the request registers, with its port. -/
def Request.registrations : Request → List (UInt8 × String)
  | .observePort number observer =>
      match Ports.port number with
      | .ok port => [(port, observer)]
      | .error _ => []
  | _ => []

namespace Ports

/-- Those of the registered observers that watch the port. -/
def watchersAmong (registered : List (UInt8 × String)) (port : UInt8) : List String :=
  (registered.filter fun entry => entry.1 == port).map fun entry => entry.2

/-- A change of a port by a write, with the observers that the port has at that time. -/
structure Announcement extends Change where
  port : UInt8
  observers : List String
  deriving DecidableEq, Repr

namespace Announcement

/-- What is told of a change when some observers have been registered earlier than its own. -/
def told (earlier : List (UInt8 × String)) (announcement : Announcement) : List PortEvent :=
  (watchersAmong earlier announcement.port ++ announcement.observers).map fun observer =>
    { observer, port := announcement.port, old := announcement.old, new := announcement.new }

/-- The value is another one than before, and nobody is told who is not registered. -/
structure IsSound (registered : List (UInt8 × String)) (announcement : Announcement) : Prop where
  differs : announcement.old ≠ announcement.new
  watching : ∀ observer ∈ announcement.observers, (announcement.port, observer) ∈ registered

theorem IsSound.mono {registered more : List (UInt8 × String)} {announcement : Announcement}
    (sound : announcement.IsSound registered) (contains : registered ⊆ more) :
    announcement.IsSound more where
  differs := sound.differs
  watching := fun observer member => contains (sound.watching observer member)

theorem isSound_of_mem_nil {registered : List (UInt8 × String)} {announcement : Announcement}
    (member : announcement ∈ ([] : List Announcement)) : announcement.IsSound registered :=
  absurd member List.not_mem_nil

/-- Where nobody is registered, nobody is told. -/
theorem IsSound.told_nil {announcement : Announcement} (sound : announcement.IsSound []) :
    announcement.told [] = [] := by
  have nobody : announcement.observers = [] :=
    List.eq_nil_iff_forall_not_mem.2 fun observer member =>
      List.not_mem_nil (sound.watching observer member)
  rw [told, nobody]
  rfl

end Announcement

section Earlier

variable (earlier : List (UInt8 × String)) (journal : List PortEvent)

/-- The ports with observers in front of their own, and with a journal in the place of their own. -/
def withEarlier (ports : Ports) : Ports :=
  { ports with observers := earlier ++ ports.observers, journal }

/-- A journal with what is told of some changes. -/
def journalAfter (announcements : List Announcement) : List PortEvent :=
  (announcements.flatMap (Announcement.told earlier)).reverse ++ journal

theorem journalAfter_append (announcements later : List Announcement) :
    journalAfter earlier journal (announcements ++ later) =
      journalAfter earlier (journalAfter earlier journal announcements) later := by
  rw [journalAfter, journalAfter, journalAfter, List.flatMap_append, List.reverse_append,
    List.append_assoc]

/-- The change that a write makes, if it makes one. -/
def announcementsOf (ports : Ports) (port value : UInt8) : List Announcement :=
  if ports.read port = value then []
  else [{ old := ports.read port, new := value, port, observers := ports.observersOf port }]

theorem isSound_of_mem_announcementsOf {ports : Ports} {port value : UInt8}
    {announcement : Announcement} (member : announcement ∈ ports.announcementsOf port value) :
    announcement.IsSound ports.observers := by
  rw [announcementsOf] at member
  split at member
  · exact absurd member List.not_mem_nil
  · rename_i differs
    obtain rfl := List.mem_singleton.1 member
    refine ⟨differs, ?_⟩
    intro observer watches
    obtain ⟨entry, listed, rfl⟩ := List.mem_map.1 watches
    obtain ⟨registered, same⟩ := List.mem_filter.1 listed
    rw [← eq_of_beq same]
    exact registered

theorem eventsOf_withEarlier (ports : Ports) (port old new : UInt8) :
    (ports.withEarlier earlier journal).eventsOf port old new =
      Announcement.told earlier { old, new, port, observers := ports.observersOf port } := by
  have watchers : (ports.withEarlier earlier journal).observersOf port =
      watchersAmong earlier port ++ ports.observersOf port := by
    simp only [observersOf, withEarlier, watchersAmong, List.filter_append, List.map_append]
  rw [eventsOf, watchers, Announcement.told]

theorem write_withEarlier (ports : Ports) (port value : UInt8) :
    (ports.withEarlier earlier journal).write port value =
      (ports.write port value).withEarlier earlier
        (journalAfter earlier journal (ports.announcementsOf port value)) := by
  have sameValue : (ports.withEarlier earlier journal).read port = ports.read port := rfl
  simp only [write, sameValue, eventsOf_withEarlier, announcementsOf]
  split
  · rfl
  · rw [journalAfter, List.flatMap_singleton]
    rfl

theorem observe_withEarlier (ports : Ports) (port : UInt8) (observer : String) :
    (ports.withEarlier earlier journal).observe port observer =
      (ports.observe port observer).withEarlier earlier journal := by
  simp only [observe, withEarlier, List.append_assoc]

end Earlier

end Ports

open Ports (Announcement journalAfter)

/-! ## Operations -/

section Operations

variable (earlier : List (UInt8 × String)) (journal : List PortEvent)

def Machine.withEarlier (machine : Machine) : Machine :=
  { machine with ports := machine.ports.withEarlier earlier journal }

def Effect.withEarlier (effect : Effect) : Effect :=
  { effect with machine := effect.machine.withEarlier earlier journal }

namespace Context

variable (context : Context) {machine : Machine}

theorem withImmediate_withEarlier {operation other : UInt16 → Machine}
    (alike : ∀ value, other value = (operation value).withEarlier earlier journal) :
    context.withImmediate (machine.withEarlier earlier journal) other =
      (context.withImmediate machine operation).withEarlier earlier journal := by
  rw [withImmediate, withImmediate]
  cases context.immediate with
  | none => rfl
  | some value =>
      simp only [alike]
      rfl

theorem ifModelled_withEarlier {effect other : Effect}
    (alike : other = effect.withEarlier earlier journal) :
    context.ifModelled (machine.withEarlier earlier journal) other =
      (context.ifModelled machine effect).withEarlier earlier journal := by
  rw [ifModelled, ifModelled]
  split
  · exact alike
  · rfl

theorem onCondition_withEarlier (condition : Option Condition) {effect other : Effect}
    (alike : other = effect.withEarlier earlier journal) :
    context.onCondition (machine.withEarlier earlier journal) condition other =
      (context.onCondition machine condition effect).withEarlier earlier journal := by
  have sameStatus : (machine.withEarlier earlier journal).registers = machine.registers := rfl
  rw [onCondition, onCondition, sameStatus]
  split
  · exact alike
  · rfl

end Context

/-- Only an output can tell what observers there are. -/
theorem execute_withEarlier {operation : Operation} (quiet : operation ≠ .output)
    (context : Context) (machine : Machine) :
    operation.execute context (machine.withEarlier earlier journal) =
      (operation.execute context machine).withEarlier earlier journal := by
  cases operation with
  | move destination source => cases destination <;> cases source <;> rfl
  | moveImmediate destination =>
      exact context.withImmediate_withEarlier _ _ fun value => by cases destination <;> rfl
  | loadPair pair => exact context.withImmediate_withEarlier _ _ fun value => rfl
  | loadAccumulator => exact context.withImmediate_withEarlier _ _ fun address => rfl
  | storeAccumulator => exact context.withImmediate_withEarlier _ _ fun address => rfl
  | loadHL => exact context.withImmediate_withEarlier _ _ fun address => rfl
  | storeHL => exact context.withImmediate_withEarlier _ _ fun address => rfl
  | accumulate operation operand =>
      cases operand with
      | location location => cases location <;> cases operation <;> rfl
      | immediate =>
          simp only [Operation.execute]
          cases context.immediate with
          | none => rfl
          | some value => cases operation <;> rfl
  | increment location => cases location <;> rfl
  | decrement location => cases location <;> rfl
  | decimalAdjust => exact context.ifModelled_withEarlier _ _ rfl
  | jump condition => exact context.onCondition_withEarlier _ _ condition rfl
  | call condition => exact context.onCondition_withEarlier _ _ condition rfl
  | ret condition => exact context.onCondition_withEarlier _ _ condition rfl
  | input =>
      apply context.ifModelled_withEarlier
      cases context.immediate with
      | none => rfl
      | some value =>
          simp only
          cases Ports.port value.toNat <;> rfl
  | output => exact absurd rfl quiet
  | _ => rfl

end Operations

section Announcements

variable (context : Context) (machine : Machine)

/-- An output tells the observers of the change that it makes, whoever they are. -/
theorem exists_announcements_output :
    ∃ announcements : List Announcement,
      (∀ announcement ∈ announcements, announcement.IsSound machine.ports.observers) ∧
      ∀ earlier journal, Operation.output.execute context (machine.withEarlier earlier journal) =
        (Operation.output.execute context machine).withEarlier earlier
          (journalAfter earlier journal announcements) := by
  simp only [Operation.execute, Context.withPort, Context.ifModelled]
  split
  · cases context.immediate with
    | none => exact ⟨[], fun _ => Announcement.isSound_of_mem_nil, fun _ _ => rfl⟩
    | some value =>
        simp only
        cases Ports.port value.toNat with
        | error fault => exact ⟨[], fun _ => Announcement.isSound_of_mem_nil, fun _ _ => rfl⟩
        | ok port =>
            refine ⟨machine.ports.announcementsOf port machine.registers.a,
              fun _ => Ports.isSound_of_mem_announcementsOf, fun earlier journal => ?_⟩
            exact congrArg (fun ports => context.proceed { machine with ports })
              (machine.ports.write_withEarlier earlier journal port machine.registers.a)
  · exact ⟨[], fun _ => Announcement.isSound_of_mem_nil, fun _ _ => rfl⟩

theorem exists_announcements_execute (operation : Operation) :
    ∃ announcements : List Announcement,
      (∀ announcement ∈ announcements, announcement.IsSound machine.ports.observers) ∧
      ∀ earlier journal, operation.execute context (machine.withEarlier earlier journal) =
        (operation.execute context machine).withEarlier earlier
          (journalAfter earlier journal announcements) := by
  by_cases outputs : operation = .output
  · rw [outputs]
    exact exists_announcements_output context machine
  · exact ⟨[], fun _ => Announcement.isSound_of_mem_nil, fun earlier journal =>
      execute_withEarlier earlier journal outputs context machine⟩

end Announcements

namespace Session

def withEarlier (earlier : List (UInt8 × String)) (journal : List PortEvent) (session : Session) :
    Session :=
  { session with machine := session.machine.withEarlier earlier journal }

/-! ## What is done to a session -/

/-- What is done to a session comes out the same whatever observers there have been earlier, and these
are told of the same changes.  Some more observers are registered on the way. -/
structure Announces {Answer : Type} (session : Session) (action : Session → Session × Answer)
    (registered : List (UInt8 × String)) (announcements : List Announcement) : Prop where
  alike : ∀ earlier journal, action (session.withEarlier earlier journal) =
    ((action session).1.withEarlier earlier (journalAfter earlier journal announcements),
      (action session).2)
  observers : (action session).1.machine.ports.observers =
    session.machine.ports.observers ++ registered
  sound : ∀ announcement ∈ announcements,
    announcement.IsSound (session.machine.ports.observers ++ registered)

/-- What is done to a session comes out the same whatever observers there have been earlier, and no
observer is told of anything. -/
structure IsQuiet {Answer : Type} (session : Session) (action : Session → Session × Answer) :
    Prop where
  alike : ∀ earlier journal, action (session.withEarlier earlier journal) =
    ((action session).1.withEarlier earlier journal, (action session).2)
  observers : (action session).1.machine.ports.observers = session.machine.ports.observers

section Announces

variable {Answer Later : Type} {session : Session} {action other : Session → Session × Answer}
  {registered registeredLater : List (UInt8 × String)}
  {announcements announcementsLater : List Announcement}

theorem IsQuiet.announces (quiet : session.IsQuiet action) : session.Announces action [] [] where
  alike := quiet.alike
  observers := quiet.observers.trans (List.append_nil _).symm
  sound := fun _ => Announcement.isSound_of_mem_nil

theorem Announces.congr (announces : session.Announces other registered announcements)
    (same : ∀ earlier journal, action (session.withEarlier earlier journal) =
      other (session.withEarlier earlier journal)) :
    session.Announces action registered announcements := by
  -- with nobody in front of its observers, and its own journal, the session is itself
  have sameHere : action session = other session := same [] session.machine.ports.journal
  constructor
  case alike =>
    intro earlier journal
    rw [same, sameHere]
    exact announces.alike earlier journal
  case observers =>
    rw [sameHere]
    exact announces.observers
  case sound => exact announces.sound

/-- One thing is done after the other, where the second may depend on the answer of the first. -/
theorem Announces.bind (next : Answer → Session → Session × Later)
    (first : session.Announces action registered announcements)
    (second : (action session).1.Announces (next (action session).2) registeredLater
      announcementsLater) :
    session.Announces (fun session => next (action session).2 (action session).1)
      (registered ++ registeredLater) (announcements ++ announcementsLater) := by
  constructor
  case alike =>
    intro earlier journal
    simp only [first.alike, second.alike, Ports.journalAfter_append]
  case observers => rw [second.observers, first.observers, List.append_assoc]
  case sound =>
    intro announcement member
    rw [← List.append_assoc]
    rcases List.mem_append.1 member with inFirst | inSecond
    · exact (first.sound announcement inFirst).mono (List.subset_append_left _ _)
    · rw [← first.observers]
      exact second.sound announcement inSecond

theorem Announces.journal (announces : session.Announces action registered announcements) :
    (action session).1.machine.ports.journal =
      journalAfter [] session.machine.ports.journal announcements :=
  congrArg (fun result => result.1.machine.ports.journal)
    (announces.alike [] session.machine.ports.journal)

/-- Changes are announced, and nobody is registered. -/
def AnnouncesSome (session : Session) (action : Session → Session × Answer) : Prop :=
  ∃ announcements, session.Announces action [] announcements

theorem IsQuiet.announcesSome (quiet : session.IsQuiet action) : session.AnnouncesSome action :=
  ⟨[], quiet.announces⟩

theorem AnnouncesSome.congr (announces : session.AnnouncesSome other)
    (same : ∀ earlier journal, action (session.withEarlier earlier journal) =
      other (session.withEarlier earlier journal)) : session.AnnouncesSome action := by
  obtain ⟨announcements, announcesThem⟩ := announces
  exact ⟨announcements, announcesThem.congr same⟩

theorem AnnouncesSome.bind (next : Answer → Session → Session × Later)
    (first : session.AnnouncesSome action)
    (second : (action session).1.AnnouncesSome (next (action session).2)) :
    session.AnnouncesSome fun session => next (action session).2 (action session).1 := by
  obtain ⟨announcements, announces⟩ := first
  obtain ⟨later, announcesLater⟩ := second
  exact ⟨announcements ++ later, announces.bind next announcesLater⟩

theorem AnnouncesSome.map (announces : session.AnnouncesSome action) (function : Answer → Later) :
    session.AnnouncesSome fun session => ((action session).1, function (action session).2) :=
  announces.bind (fun answer session => (session, function answer))
    (IsQuiet.announcesSome ⟨fun _ _ => rfl, rfl⟩)

end Announces

/-! ## Executions -/

section Executions

variable {setup : Setup} {session : Session}

theorem finish_withEarlier (earlier : List (UInt8 × String)) (journal journalLater : List PortEvent)
    (session : Session) (line : TraceLine) (effect : Effect) :
    (session.withEarlier earlier journal).finish line (effect.withEarlier earlier journalLater) =
      ((session.finish line effect).1.withEarlier earlier journalLater,
        (session.finish line effect).2) := by
  obtain ⟨machine, ending⟩ := effect
  cases ending with
  | proceed next =>
      cases next with
      | none => rfl
      | some next =>
          simp only [finish, Effect.withEarlier]
          split <;> rfl
  | _ => rfl

theorem observers_attempt (setup : Setup) (session : Session) :
    (session.attempt setup).1.machine.ports.observers = session.machine.ports.observers := by
  rcases ports_attempt_cases setup session with kept | ⟨written, value, changed⟩
  · rw [kept]
  · rw [changed]
    rfl

theorem announcesSome_attempt (setup : Setup) (session : Session) :
    session.AnnouncesSome (attempt setup) := by
  have observers : (session.attempt setup).1.machine.ports.observers =
      session.machine.ports.observers ++ [] :=
    (observers_attempt setup session).trans (List.append_nil _).symm
  cases fetches : session.machine.memory.fetch setup session.programCounter with
  | error fault =>
      refine ⟨[], ?_, observers, fun _ => Announcement.isSound_of_mem_nil⟩
      intro earlier journal
      have refuses : (session.withEarlier earlier journal).machine.memory.fetch setup
          (session.withEarlier earlier journal).programCounter = .error fault := fetches
      rw [attempt_of_not_fetched fetches, attempt_of_not_fetched refuses]
      rfl
  | ok fetched =>
      obtain ⟨announcements, sound, alike⟩ := exists_announcements_execute
        (session.context setup fetched) session.machine fetched.form.operation
      rw [← List.append_nil session.machine.ports.observers] at sound
      by_cases tooWide : (session.tracing && decide (2 < fetched.form.width)) = true
      · refine ⟨[], ?_, observers, fun _ => Announcement.isSound_of_mem_nil⟩
        intro earlier journal
        have fetchesToo : (session.withEarlier earlier journal).machine.memory.fetch setup
          (session.withEarlier earlier journal).programCounter = .ok fetched := fetches
        rw [attempt_of_fetched fetches, attempt_of_fetched fetchesToo, carryOut, carryOut,
          if_pos tooWide]
        exact if_pos tooWide
      · refine ⟨announcements, ?_, observers, sound⟩
        intro earlier journal
        have fetchesToo : (session.withEarlier earlier journal).machine.memory.fetch setup
          (session.withEarlier earlier journal).programCounter = .ok fetched := fetches
        rw [attempt_of_fetched fetches, attempt_of_fetched fetchesToo, carryOut, carryOut,
          if_neg tooWide, ← finish_withEarlier earlier journal, ← alike]
        exact if_neg tooWide

/-- What becomes of a step when its attempt has come out so. -/
def settle (outcome : Outcome) (after : Session) : Session × Except Defect (Option StopReason) :=
  match outcome with
  | .completed stop => (after, .ok stop)
  | .fault fault => (after.fail fault, .ok (some fault.stopReason))
  | .defect defect => (after, .error defect)

theorem step_eq_settle (setup : Setup) (session : Session) :
    session.step setup = settle (session.attempt setup).2 (session.attempt setup).1 := by
  rw [step]
  rcases session.attempt setup with ⟨after, outcome⟩
  cases outcome <;> rfl

theorem announcesSome_step (setup : Setup) (session : Session) :
    session.AnnouncesSome (step setup) := by
  have settles : ∀ outcome after, AnnouncesSome after (settle outcome) := by
    intro outcome after
    cases outcome <;> exact IsQuiet.announcesSome ⟨fun _ _ => rfl, rfl⟩
  exact ((announcesSome_attempt setup session).bind settle (settles _ _)).congr
    fun _ _ => step_eq_settle setup _

/-- The steps behind one that has come out so. -/
def stepsBehind (setup : Setup) (found : List (Option StopReason × Registers)) (count : Nat)
    (result : Except Defect (Option StopReason)) (after : Session) :
    Session × Except Defect (List (Option StopReason × Registers)) :=
  match result with
  | .error defect => (after, .error defect)
  | .ok (some reason) => (after, .ok ((some reason, after.machine.registers) :: found).reverse)
  | .ok none => stepsFrom setup ((none, after.machine.registers) :: found) count after

theorem stepsFrom_succ (setup : Setup) (found : List (Option StopReason × Registers)) (count : Nat)
    (session : Session) :
    session.stepsFrom setup found (count + 1) =
      stepsBehind setup found count (session.step setup).2 (session.step setup).1 := by
  rw [stepsFrom]
  rcases session.step setup with ⟨after, result⟩
  rcases result with defect | stop
  · rfl
  · cases stop <;> rfl

theorem announcesSome_stepsFrom (setup : Setup) (found : List (Option StopReason × Registers))
    (count : Nat) (session : Session) : session.AnnouncesSome (stepsFrom setup found count) := by
  induction count generalizing found session with
  | zero => exact IsQuiet.announcesSome ⟨fun _ _ => rfl, rfl⟩
  | succ count inductionHypothesis =>
      have goesOn : ∀ result after, AnnouncesSome after (stepsBehind setup found count result) := by
        intro result after
        rcases result with defect | stop
        · exact IsQuiet.announcesSome ⟨fun _ _ => rfl, rfl⟩
        · cases stop with
          | some reason => exact IsQuiet.announcesSome ⟨fun _ _ => rfl, rfl⟩
          | none =>
              exact (inductionHypothesis ((none, after.machine.registers) :: found) after).congr
                fun _ _ => rfl
      exact ((announcesSome_step setup session).bind _ (goesOn _ _)).congr
        fun _ _ => stepsFrom_succ setup found count _

/-- The turns of a run behind a step that has come out so. -/
def turnsBehind (setup : Setup) (bounds : Bounds) (patience executed : Nat)
    (result : Except Defect (Option StopReason)) (after : Session) : Session × RunOutcome :=
  match result with
  | .error defect => (after, .failed defect)
  | .ok (some reason) => (after, .stopped reason)
  | .ok none => turns setup bounds patience (executed + 1) after

theorem turns_succ (setup : Setup) (bounds : Bounds) (patience executed : Nat) {session : Session}
    (goesOn : session.stopBefore bounds executed = none) :
    session.turns setup bounds (patience + 1) executed =
      turnsBehind setup bounds patience executed (session.step setup).2 (session.step setup).1 := by
  rw [turns, goesOn]
  simp only
  rcases session.step setup with ⟨after, result⟩
  rcases result with defect | stop
  · rfl
  · cases stop <;> rfl

theorem announcesSome_turns (setup : Setup) (bounds : Bounds) (patience executed : Nat)
    (session : Session) : session.AnnouncesSome (turns setup bounds patience executed) := by
  induction patience generalizing executed session with
  | zero => exact IsQuiet.announcesSome ⟨fun _ _ => rfl, rfl⟩
  | succ patience inductionHypothesis =>
      have asks : ∀ earlier journal, (session.withEarlier earlier journal).stopBefore bounds executed =
          session.stopBefore bounds executed := fun _ _ => rfl
      cases stops : session.stopBefore bounds executed with
      | some reason =>
          apply IsQuiet.announcesSome
          constructor
          case alike =>
            intro earlier journal
            rw [turns, turns, asks, stops]
          case observers => rw [turns, stops]
      | none =>
          have goesOn : ∀ result after,
              AnnouncesSome after (turnsBehind setup bounds patience executed result) := by
            intro result after
            rcases result with defect | stop
            · exact IsQuiet.announcesSome ⟨fun _ _ => rfl, rfl⟩
            · cases stop with
              | some reason => exact IsQuiet.announcesSome ⟨fun _ _ => rfl, rfl⟩
              | none => exact inductionHypothesis (executed + 1) after
          exact ((announcesSome_step setup session).bind _ (goesOn _ _)).congr fun earlier journal =>
            turns_succ setup bounds patience executed ((asks earlier journal).trans stops)

/-- What becomes of a run whose turns have come out so. -/
def haltBehind (outcome : RunOutcome) (after : Session) : Session × RunOutcome :=
  match outcome with
  | .stopped reason => (after.halt, .stopped reason)
  | other => (after, other)

theorem resume_eq_haltBehind (setup : Setup) (patience : Nat) (maxSteps polls : Option Int)
    (session : Session) :
    session.resume setup patience maxSteps polls =
      haltBehind (turns setup (boundsOf setup.config maxSteps polls) patience 0 session.start).2
        (turns setup (boundsOf setup.config maxSteps polls) patience 0 session.start).1 := by
  rw [resume]
  rcases turns setup (boundsOf setup.config maxSteps polls) patience 0 session.start
    with ⟨after, outcome⟩
  cases outcome <;> rfl

theorem announcesSome_resume (setup : Setup) (patience : Nat) (maxSteps polls : Option Int)
    (session : Session) : session.AnnouncesSome (resume setup patience maxSteps polls) := by
  have starts : session.IsQuiet fun session => (session.start, ()) := ⟨fun _ _ => rfl, rfl⟩
  have halts : ∀ outcome after, AnnouncesSome after (haltBehind outcome) := by
    intro outcome after
    cases outcome <;> exact IsQuiet.announcesSome ⟨fun _ _ => rfl, rfl⟩
  have turnsStarted := starts.announcesSome.bind
    (fun _ => turns setup (boundsOf setup.config maxSteps polls) patience 0)
    (announcesSome_turns setup _ patience 0 session.start)
  exact (turnsStarted.bind haltBehind (halts _ _)).congr
    fun _ _ => resume_eq_haltBehind setup patience maxSteps polls _

theorem announcesSome_run (setup : Setup) (patience : Nat) (maxSteps polls : Option Int)
    (session : Session) : session.AnnouncesSome (run setup patience maxSteps polls) := by
  have goes : session.IsQuiet fun session => (session.goTo 0, ()) := ⟨fun _ _ => rfl, rfl⟩
  exact goes.announcesSome.bind (fun _ => resume setup patience maxSteps polls)
    (announcesSome_resume setup patience maxSteps polls (session.goTo 0))

/-- The answer to steps that came out so. -/
def answerOf {Result : Type} (reply : Result → Reply) (result : Except Defect Result) :
    Except Refusal Reply :=
  match result with
  | .ok value => .ok (reply value)
  | .error defect => .error (.defect defect)

/-- The answer to an attempt that came out so. -/
def answerOfOutcome (outcome : Outcome) : Except Refusal Reply :=
  match outcome with
  | .completed stop => .ok (.stop stop)
  | .fault fault => .error (.fault fault)
  | .defect defect => .error (.defect defect)

theorem announcesSome_of_isExecution (patience : Nat) {request : Request}
    (execution : request.isExecution = true) (session : Session) :
    session.AnnouncesSome (perform setup patience request) := by
  have answers : ∀ outcome after, AnnouncesSome after fun after => answerRun (after, outcome) := by
    intro outcome after
    cases outcome <;> exact IsQuiet.announcesSome ⟨fun _ _ => rfl, rfl⟩
  cases request with
  | step =>
      have stepped := (announcesSome_step setup session).map (answerOf Reply.stop)
      refine stepped.congr fun earlier journal => ?_
      rw [perform]
      rcases (session.withEarlier earlier journal).step setup with ⟨after, result⟩
      cases result <;> rfl
  | attempt =>
      have attempted := (announcesSome_attempt setup session).map answerOfOutcome
      refine attempted.congr fun earlier journal => ?_
      rw [perform]
      rcases (session.withEarlier earlier journal).attempt setup with ⟨after, outcome⟩
      cases outcome <;> rfl
  | steps count =>
      have stepped := (announcesSome_stepsFrom setup [] count session).map (answerOf Reply.stops)
      refine stepped.congr fun earlier journal => ?_
      rw [perform]
      rcases (session.withEarlier earlier journal).stepsFrom setup [] count with ⟨after, result⟩
      cases result <;> rfl
  | run maxSteps polls =>
      exact (announcesSome_run setup patience maxSteps polls session).bind
        (fun outcome after => answerRun (after, outcome)) (answers _ _)
  | resume maxSteps polls =>
      exact (announcesSome_resume setup patience maxSteps polls session).bind
        (fun outcome after => answerRun (after, outcome)) (answers _ _)
  | _ => cases execution

end Executions

/-! ## Accesses -/

/-- An access writes to a port at most, unless it registers somebody. -/
theorem announcesSome_of_isAccess (setup : Setup) (patience : Nat) {request : Request}
    (access : request.isAccess = true)
    (noObserver : ∀ port observer, request ≠ .observePort port observer) (session : Session) :
    session.AnnouncesSome (perform setup patience request) := by
  obtain ⟨act, acts⟩ := acts_of_isAccess setup patience access
  have allowed := acts.allowed session.view
  have performs : perform setup patience request = fun session => session.edited (act session.view) :=
    funext acts.performs
  have sameView : ∀ earlier journal, (session.withEarlier earlier journal).view = session.view :=
    fun _ _ => rfl
  rw [performs]
  cases made : (act session.view).1 with
  | writePort port value =>
      refine ⟨session.machine.ports.announcementsOf port value, ?_, ?_, ?_⟩
      · intro earlier journal
        simp only [edited, sameView, made]
        exact congrArg (fun ports => (session.setPorts ports, (act session.view).2))
          (session.machine.ports.write_withEarlier earlier journal port value)
      · simp only [edited, made, List.append_nil]
        rfl
      · rw [List.append_nil]
        exact fun _ => Ports.isSound_of_mem_announcementsOf
  | observePort port observer =>
      rw [made] at allowed
      exact absurd allowed (noObserver _ observer)
  | _ =>
      apply IsQuiet.announcesSome
      constructor
      case alike =>
        intro earlier journal
        simp only [edited, sameView, made]
        rfl
      case observers =>
        simp only [edited, made]
        rfl

/-! ## Requests -/

section Requests

variable {setup : Setup} {patience : Nat}

theorem isQuiet_refused (refusal : Refusal) (session : Session) :
    session.IsQuiet fun session => (session, (.error refusal : Except Refusal Reply)) :=
  ⟨fun _ _ => rfl, rfl⟩

theorem announces_observePort (number : Int) (observer : String) (session : Session) :
    session.Announces (perform setup patience (.observePort number observer))
      (Request.observePort number observer).registrations [] := by
  cases named : Ports.port number with
  | error fault =>
      simp only [Request.registrations, named]
      exact (isQuiet_refused (.fault fault) session).announces.congr fun _ _ => by
        simp only [perform, change, named]
  | ok port =>
      have observes : session.Announces (fun session =>
          (session.setPorts (session.machine.ports.observe port observer),
            (.ok .nothing : Except Refusal Reply))) [(port, observer)] [] := by
        refine ⟨?_, rfl, fun _ => Announcement.isSound_of_mem_nil⟩
        intro earlier journal
        exact congrArg (fun ports => (session.setPorts ports, Except.ok Reply.nothing))
          (session.machine.ports.observe_withEarlier earlier journal port observer)
      simp only [Request.registrations, named]
      exact observes.congr fun _ _ => by simp only [perform, change, named]

/-- Nothing but a request for it registers an observer. -/
theorem announcesSome_perform (setup : Setup) (patience : Nat) {request : Request}
    (noObserver : ∀ port observer, request ≠ .observePort port observer) (session : Session) :
    session.AnnouncesSome (perform setup patience request) := by
  cases request using Request.byKind with
  | execution request execution => exact announcesSome_of_isExecution patience execution session
  | access request access => exact announcesSome_of_isAccess setup patience access noObserver session
  | _ => exact IsQuiet.announcesSome ⟨fun _ _ => rfl, rfl⟩

theorem exists_announces_perform (setup : Setup) (patience : Nat) (request : Request)
    (session : Session) :
    ∃ announcements, session.Announces (perform setup patience request) request.registrations
      announcements := by
  by_cases observes : ∃ port observer, request = .observePort port observer
  · obtain ⟨port, observer, rfl⟩ := observes
    exact ⟨[], announces_observePort port observer session⟩
  · have noObserver : ∀ port observer, request ≠ .observePort port observer :=
      fun port observer same => observes ⟨port, observer, same⟩
    have nobody : request.registrations = [] := by
      cases request with
      | observePort port observer => exact absurd rfl (noObserver port observer)
      | _ => rfl
    rw [nobody]
    exact announcesSome_perform setup patience noObserver session

/-- The requests behind one that has been answered so. -/
def performBehind (setup : Setup) (patience : Nat) (rest : List Request)
    (answer : Except Refusal Reply) (after : Session) :
    Session × List (Except Refusal Reply) :=
  ((performAll setup patience rest after).1, answer :: (performAll setup patience rest after).2)

/-- A sequence of requests comes out the same whatever observers there have been earlier. -/
theorem exists_announces_performAll (setup : Setup) (patience : Nat) (requests : List Request)
    (session : Session) :
    ∃ announcements, session.Announces (performAll setup patience requests)
      (requests.flatMap Request.registrations) announcements := by
  induction requests generalizing session with
  | nil =>
      have nothing : session.IsQuiet (performAll setup patience []) := ⟨fun _ _ => rfl, rfl⟩
      exact ⟨[], nothing.announces⟩
  | cons request rest inductionHypothesis =>
      obtain ⟨announcements, first⟩ := exists_announces_perform setup patience request session
      obtain ⟨later, second⟩ := inductionHypothesis (session.perform setup patience request).1
      have listed : ∀ answer, (session.perform setup patience request).1.Announces
          (performBehind setup patience rest answer) (rest.flatMap Request.registrations) later :=
        fun answer => ⟨fun _ _ => by simp only [performBehind, second.alike], second.observers,
          second.sound⟩
      rw [List.flatMap_cons]
      exact ⟨announcements ++ later, first.bind (performBehind setup patience rest) (listed _)⟩

end Requests

end Session

end Intel8085
