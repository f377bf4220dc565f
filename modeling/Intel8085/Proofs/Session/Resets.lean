import Intel8085.Proofs.Session.EarlierObservers
import Intel8085.Proofs.Session.Ranges

/-!
# Resets

A session that is reset keeps the observers of its ports and the switch of its trace, and forgets all
else that was done to it: it is a new session with these observers in front of those to come
(`reset_performAll`).  So what a host asks for afterwards comes out as in a new session, answer for
answer and change for change (`performAll_afresh`).
-/

set_option autoImplicit false

namespace Intel8085

def Request.switchesTrace : Request → Bool
  | .setTracing _ => true
  | _ => false

namespace Session

open Ports (Announcement journalAfter)

section Resets

variable {setup : Setup} {session after : Session}

theorem tracing_attempt (setup : Setup) (session : Session) :
    (session.attempt setup).1.tracing = session.tracing := by
  cases fetches : session.machine.memory.fetch setup session.programCounter with
  | error fault => rw [attempt_of_not_fetched fetches]
  | ok fetched =>
      rw [attempt_of_fetched fetches, carryOut]
      split
      · rfl
      · rcases finish_leaves session (session.traceLine fetched)
          (fetched.form.operation.execute (session.context setup fetched) session.machine)
          with ⟨machine, left, _⟩ | ⟨machine, halted, left⟩
        · rw [left]
        · rw [left]
          rfl

theorem tracing_of_moves (moves : Relation.ReflTransGen (Moves setup) session after) :
    after.tracing = session.tracing := by
  induction moves with
  | refl => rfl
  | @tail reached _ _ move inductionHypothesis =>
      cases move with
      | attempt => exact (tracing_attempt setup reached).trans inductionHypothesis
      | mark halted lastError => exact inductionHypothesis
      | goTo address => exact inductionHypothesis

theorem tracing_perform (setup : Setup) (patience : Nat) {request : Request}
    (leaves : request.switchesTrace = false) (session : Session) :
    (session.perform setup patience request).1.tracing = session.tracing := by
  cases request using Request.byKind with
  | execution request execution =>
      exact tracing_of_moves (moves_of_isExecution patience execution session)
  | access request access =>
      obtain ⟨machine, halted, edited⟩ :=
        (accesses_of_isAccess setup patience access session).edits
      rw [edited]
  | setTracing value => cases leaves
  | _ => rfl

theorem tracing_performAll (setup : Setup) (patience : Nat) {requests : List Request}
    (leave : ∀ request ∈ requests, request.switchesTrace = false) (session : Session) :
    (session.performAll setup patience requests).1.tracing = session.tracing := by
  induction requests generalizing session with
  | nil => rfl
  | cons request rest inductionHypothesis =>
      obtain ⟨leaves, leaveRest⟩ := List.forall_mem_cons.1 leave
      exact (inductionHypothesis leaveRest _).trans (tracing_perform setup patience leaves session)

theorem reset_eq_withEarlier {config : Config} (tracing : session.tracing = config.trace)
    (limit : session.trace.limit = config.traceLimit) :
    session.reset = (initial config).withEarlier session.machine.ports.observers
      session.machine.ports.journal := by
  simp only [reset, Ports.reset, tracing, limit, withEarlier, Machine.withEarlier,
    Ports.withEarlier, initial, Machine.initial, Ports.silent, List.append_nil]

/-- A session that was new once and is reset is a new one, with the observers that were registered in
front of those to come. -/
theorem reset_performAll (setup : Setup) (patience : Nat) {requests : List Request}
    (leave : ∀ request ∈ requests, request.switchesTrace = false) :
    ∃ journal, ((initial setup.config).performAll setup patience requests).1.reset =
        (initial setup.config).withEarlier (requests.flatMap Request.registrations) journal ∧
      (requests.flatMap Request.registrations = [] → journal = []) := by
  have tracing := tracing_performAll setup patience leave (initial setup.config)
  have kept : IsKept setup.config
      ((initial setup.config).performAll setup patience requests).1 :=
    holds_performAll (fun request _ => isKept_perform patience request) requests ⟨rfl, .nil⟩
  obtain ⟨announcements, announces⟩ :=
    exists_announces_performAll setup patience requests (initial setup.config)
  have resets := reset_eq_withEarlier tracing kept.limit
  rw [announces.observers] at resets
  refine ⟨_, resets, ?_⟩
  intro nobody
  have silent : announcements.flatMap (Announcement.told []) = [] := by
    rw [List.flatMap_eq_nil_iff]
    intro announcement member
    have sound := announces.sound announcement member
    rw [nobody] at sound
    exact sound.told_nil
  rw [announces.journal, journalAfter, silent]
  rfl

/-- The session answers requests as a new one does, and the session that they leave is the same, except
that the registered observers stand in front of the others and are told of the same changes, too. -/
structure StartsAfresh (setup : Setup) (patience : Nat) (requests : List Request)
    (registered : List (UInt8 × String)) (announcements : List Announcement) (session : Session) :
    Prop where
  answers : (session.performAll setup patience requests).2 =
    ((initial setup.config).performAll setup patience requests).2
  leaves : ∃ journal, (session.performAll setup patience requests).1 =
    ((initial setup.config).performAll setup patience requests).1.withEarlier registered journal
  events : (session.performAll setup patience requests).1.machine.ports.events =
    session.machine.ports.events ++ announcements.flatMap (Announcement.told registered)
  unobserved : registered = [] → session.performAll setup patience requests =
    (initial setup.config).performAll setup patience requests

/-- With every opcode table and every configuration, whatever the requests before the reset, as long as
none of them concerns the switch of the trace: what is asked for after it has the answers that it has in
a new session.  If no observer was registered before, the session and what the observers are told are
the same, too; otherwise the session is the same but for these observers, and there is one list of
changes, whatever they are, of which in the new session its observers are told and after the reset the
earlier observers of the port and then the same observers. -/
theorem performAll_afresh (setup : Setup) (patience : Nat) (requests : List Request) :
    ∃ announcements : List Announcement,
      (∀ announcement ∈ announcements, announcement.old ≠ announcement.new) ∧
      ((initial setup.config).performAll setup patience requests).1.machine.ports.events =
        announcements.flatMap (Announcement.told []) ∧
      ∀ (patienceBefore : Nat) (before : List Request),
        (∀ request ∈ before, request.switchesTrace = false) →
        StartsAfresh setup patience requests (before.flatMap Request.registrations) announcements
          ((initial setup.config).performAll setup patienceBefore before).1.reset := by
  obtain ⟨announcements, announces⟩ :=
    exists_announces_performAll setup patience requests (initial setup.config)
  refine ⟨announcements, fun announcement member => (announces.sound announcement member).differs,
    ?_, ?_⟩
  · rw [Ports.events, announces.journal, journalAfter, List.reverse_append, List.reverse_reverse]
    rfl
  · intro patienceBefore before leave
    obtain ⟨journal, used, silent⟩ := reset_performAll setup patienceBefore leave
    rw [used]
    have alike := announces.alike (before.flatMap Request.registrations) journal
    constructor
    case answers => rw [alike]
    case leaves => exact ⟨_, congrArg Prod.fst alike⟩
    case events =>
      rw [alike, Ports.events, Ports.events]
      simp only [withEarlier, Machine.withEarlier, Ports.withEarlier, journalAfter,
        List.reverse_append, List.reverse_reverse]
    case unobserved =>
      intro nobody
      rw [nobody, silent nobody]
      rfl

end Resets

/-- A lamp is registered and told of a change, a register is asked for that does not exist, a breakpoint
is set, interrupts are enabled, and a run stops at an opcode without a form. -/
def eventfulRequests : List Request :=
  [.observePort 1 "lamp", .observePort 256 "nobody", .writePort 1 9, .getRegister (.number 7),
    .addBreakpoint 2, .load [0xFB, 0x08] 0, .run none none, .setPart .programCounter 0xFFFF]

/-- A meter is registered, and `MVI A, 7`, `OUT 1` and `HLT` are run. -/
def outputRequests : List Request :=
  [.observePort 1 "meter", .load [0x3E, 7, 0xD3, 1, 0x76] 0, .run none none, .writePort 2 9]

theorem performAll_afresh_of_lamp :
    (∀ request ∈ eventfulRequests, request.switchesTrace = false) ∧
    eventfulRequests.flatMap Request.registrations = [(1, "lamp")] ∧
    ((((initial (.ofProfile .datasheet)).performAll
      { table := .standard, config := .ofProfile .datasheet } 9 eventfulRequests).1.reset).performAll
        { table := .standard, config := .ofProfile .datasheet } 9 outputRequests).1.machine.ports.events =
      [⟨"lamp", 1, 0, 9⟩, ⟨"lamp", 1, 0, 7⟩, ⟨"meter", 1, 0, 7⟩] ∧
    ∃ announcements, StartsAfresh { table := .standard, config := .ofProfile .datasheet } 9
      outputRequests [(1, "lamp")] announcements ((initial (.ofProfile .datasheet)).performAll
        { table := .standard, config := .ofProfile .datasheet } 9 eventfulRequests).1.reset := by
  have leave : ∀ request ∈ eventfulRequests, request.switchesTrace = false := by decide
  have registered : eventfulRequests.flatMap Request.registrations = [(1, "lamp")] := by decide
  obtain ⟨announcements, _, _, afresh⟩ :=
    performAll_afresh { table := .standard, config := .ofProfile .datasheet } 9 outputRequests
  have startsAfresh := afresh 9 eventfulRequests leave
  rw [registered] at startsAfresh
  exact ⟨leave, registered, by decide, announcements, startsAfresh⟩

end Session

end Intel8085
