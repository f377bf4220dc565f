import Intel8085.Proofs.Session.Locality
import Intel8085.Proofs.Session.Requests

/-!
# Observers of a port

What the observers of a port are told is the history of its value: every change of it, none of them
empty, one after the other from the value at first to the value at last, and each change is told to
all observers in the order of registration before the next one happens.  This holds across steps, runs
and whatever else the host asks for, as long as no device drives the port, no observer comes to it
and the session is not reset (`performAll_watches`).
-/

set_option autoImplicit false

namespace Intel8085

/-- The request may change the port or its observers without an observer being told. -/
def Request.disturbs (port : UInt8) : Request → Bool
  | .reset => true
  | .drivePort number _ => number == port.toNat
  | .observePort number _ => number == port.toNat
  | _ => false

namespace Ports

structure Change where
  old : UInt8
  new : UInt8
  deriving DecidableEq, Repr

/-- From the first value to the last one by way of these changes, each of which starts where the one
before it ended. -/
inductive Leads : UInt8 → List Change → UInt8 → Prop where
  | stays (value : UInt8) : Leads value [] value
  | changes {old new last : UInt8} {rest : List Change} (differs : old ≠ new)
      (later : Leads new rest last) : Leads old ({ old, new } :: rest) last

theorem Leads.trans {first middle last : UInt8} {changes later : List Change}
    (leads : Leads first changes middle) (leadsLater : Leads middle later last) :
    Leads first (changes ++ later) last := by
  induction leads with
  | stays value => exact leadsLater
  | changes differs _ inductionHypothesis => exact .changes differs (inductionHypothesis leadsLater)

/-- What the observers of a port are told of its changes: each of them, in the order of registration,
of the first change, then of the next one. -/
def accountOf (ports : Ports) (port : UInt8) (changes : List Change) : List PortEvent :=
  changes.flatMap fun change => ports.eventsOf port change.old change.new

/-- After what happened to the ports, the observers of one port are the same as before, and have been
told how its value came about. -/
structure Watches (port : UInt8) (before after : Ports) (told : List PortEvent)
    (changes : List Change) : Prop where
  observers : after.observersOf port = before.observersOf port
  journal : after.events = before.events ++ told
  leads : Leads (before.read port) changes (after.read port)
  account : told.filter (fun event => event.port == port) = before.accountOf port changes

section Watches

variable {port : UInt8} {before between after : Ports} {told toldLater : List PortEvent}
  {changes changesLater : List Change}

theorem Watches.refl (port : UInt8) (ports : Ports) : Watches port ports ports [] [] where
  observers := rfl
  journal := (List.append_nil _).symm
  leads := .stays _
  account := rfl

theorem accountOf_of_observers (same : between.observersOf port = before.observersOf port) :
    between.accountOf port changes = before.accountOf port changes := by
  simp only [accountOf, eventsOf, same]

theorem Watches.trans (first : Watches port before between told changes)
    (second : Watches port between after toldLater changesLater) :
    Watches port before after (told ++ toldLater) (changes ++ changesLater) where
  observers := second.observers.trans first.observers
  journal := by rw [second.journal, first.journal, List.append_assoc]
  leads := first.leads.trans second.leads
  account := by
    rw [List.filter_append, first.account, second.account, accountOf_of_observers first.observers,
      accountOf, accountOf, accountOf, List.flatMap_append]

/-- What an observer is told of a port, without the names. -/
def heardBy (observer : String) (port : UInt8) (told : List PortEvent) : List Change :=
  (told.filter fun event => event.port == port && event.observer == observer).map fun event =>
    { old := event.old, new := event.new }

theorem heardBy_eventsOf (ports : Ports) (observer : String) (port old new : UInt8) :
    heardBy observer port (ports.eventsOf port old new) =
      List.replicate ((ports.observersOf port).count observer) { old, new } := by
  rw [eventsOf, heardBy, List.filter_map, List.map_map, List.eq_replicate_iff]
  constructor
  · simp [List.count, List.countP_eq_length_filter, Function.comp_def]
  · intro change member
    obtain ⟨_, _, rfl⟩ := List.mem_map.1 member
    rfl

theorem heardBy_filter (observer : String) (port : UInt8) (told : List PortEvent) :
    heardBy observer port (told.filter fun event => event.port == port) =
      heardBy observer port told := by
  rw [heardBy, List.filter_filter, heardBy]
  congr 2
  funext event
  cases event.port == port <;> simp

/-- Each observer hears of every change as often as it is registered. -/
theorem Watches.heardBy (watches : Watches port before after told changes) (observer : String) :
    Ports.heardBy observer port told = changes.flatMap fun change =>
      List.replicate ((before.observersOf port).count observer) change := by
  rw [← heardBy_filter, watches.account, accountOf, Ports.heardBy, List.filter_flatMap,
    List.map_flatMap]
  congr 1
  funext change
  exact heardBy_eventsOf before observer port change.old change.new

/-! ## Writes, devices and new observers -/

theorem filter_eventsOf_same (ports : Ports) (port old new : UInt8) :
    (ports.eventsOf port old new).filter (fun event => event.port == port) =
      ports.eventsOf port old new := by
  apply List.filter_eq_self.2
  intro event member
  obtain ⟨observer, _, rfl⟩ := List.mem_map.1 member
  exact beq_self_eq_true port

theorem filter_eventsOf_other (ports : Ports) {port other : UInt8} (distinct : other ≠ port)
    (old new : UInt8) :
    (ports.eventsOf other old new).filter (fun event => event.port == port) = [] := by
  apply List.filter_eq_nil_iff.2
  intro event member
  obtain ⟨observer, _, rfl⟩ := List.mem_map.1 member
  exact fun same => distinct (eq_of_beq same)

theorem events_write (ports : Ports) (port value : UInt8) :
    (ports.write port value).events = ports.events ++
      if ports.read port = value then [] else ports.eventsOf port (ports.read port) value := by
  simp only [write, events, List.reverse_append, List.reverse_reverse]

/-- A write tells the observers of the port that it changes, if it changes it, and no others. -/
theorem watches_write (ports : Ports) (port written value : UInt8) :
    ∃ told changes, Watches port ports (ports.write written value) told changes := by
  by_cases same : written = port
  · subst same
    by_cases kept : ports.read written = value
    · refine ⟨[], [], rfl, ?_, ?_, rfl⟩
      · rw [events_write, if_pos kept]
      · rw [read_write_same, kept]
        exact .stays value
    · refine ⟨ports.eventsOf written (ports.read written) value,
        [{ old := ports.read written, new := value }], rfl, ?_, ?_, ?_⟩
      · rw [events_write, if_neg kept]
      · rw [read_write_same]
        exact .changes kept (.stays value)
      · rw [filter_eventsOf_same, accountOf, List.flatMap_singleton]
  · refine ⟨_, [], rfl, events_write ports written value, ?_, ?_⟩
    · rw [read_write_other ports value (Ne.symm same)]
      exact .stays _
    · split
      · rfl
      · rw [filter_eventsOf_other ports same]
        rfl

theorem watches_drive (ports : Ports) {port driven : UInt8} (distinct : driven ≠ port)
    (value : UInt8) : Watches port ports (ports.drive driven value) [] [] where
  observers := rfl
  journal := (List.append_nil _).symm
  leads := by
    have kept : (ports.drive driven value).read port = ports.read port :=
      read_write_other ports value (Ne.symm distinct)
    rw [kept]
    exact .stays _
  account := rfl

theorem watches_observe (ports : Ports) {port observed : UInt8} (distinct : observed ≠ port)
    (observer : String) : Watches port ports (ports.observe observed observer) [] [] where
  observers := by
    have elsewhere : (observed == port) = false := beq_eq_false_iff_ne.2 distinct
    simp only [observersOf, observe, List.filter_append, List.filter_cons, elsewhere,
      Bool.false_eq_true, if_false, List.filter_nil, List.append_nil]
  journal := (List.append_nil _).symm
  leads := .stays _
  account := rfl

end Watches

end Ports

namespace Session

variable {setup : Setup} {port : UInt8} {session after : Session}

/-! ## Executions -/

/-- No attempt but at an output that is modelled changes the ports. -/
theorem ports_attempt_cases (setup : Setup) (session : Session) :
    (session.attempt setup).1.machine.ports = session.machine.ports ∨
      ∃ written value, (session.attempt setup).1.machine.ports =
        session.machine.ports.write written value := by
  cases fetches : session.machine.memory.fetch setup session.programCounter with
  | error fault =>
      rw [attempt_of_not_fetched fetches]
      exact Or.inl rfl
  | ok fetched =>
      rw [attempt_of_fetched fetches, carryOut]
      split
      · exact Or.inl rfl
      · rw [ports_finish]
        rcases ports_execute fetched.form.operation (session.context setup fetched) session.machine
          with kept | ⟨_, _, written⟩
        · exact Or.inl kept
        · exact Or.inr ⟨_, _, written⟩

/-- The observers of the port were told of all that happened to it from one session to another. -/
def IsWatched (port : UInt8) (session after : Session) : Prop :=
  ∃ told changes, Ports.Watches port session.machine.ports after.machine.ports told changes

theorem isWatched_of_ports (kept : after.machine.ports = session.machine.ports) :
    IsWatched port session after := by
  rw [IsWatched, kept]
  exact ⟨[], [], .refl port _⟩

theorem IsWatched.trans {between : Session} (first : IsWatched port session between)
    (second : IsWatched port between after) : IsWatched port session after := by
  obtain ⟨told, changes, watches⟩ := first
  obtain ⟨toldLater, changesLater, watchesLater⟩ := second
  exact ⟨_, _, watches.trans watchesLater⟩

theorem isWatched_attempt (setup : Setup) (port : UInt8) (session : Session) :
    IsWatched port session (session.attempt setup).1 := by
  rcases ports_attempt_cases setup session with kept | ⟨written, value, changed⟩
  · exact isWatched_of_ports kept
  · rw [IsWatched, changed]
    exact Ports.watches_write session.machine.ports port written value

theorem isWatched_of_moves (port : UInt8)
    (moves : Relation.ReflTransGen (Moves setup) session after) :
    IsWatched port session after := by
  induction moves with
  | refl => exact isWatched_of_ports rfl
  | @tail reached _ _ move inductionHypothesis =>
      cases move with
      | attempt => exact inductionHypothesis.trans (isWatched_attempt setup port reached)
      | mark halted lastError => exact inductionHypothesis.trans (isWatched_of_ports rfl)
      | goTo address => exact inductionHypothesis.trans (isWatched_of_ports rfl)

/-! ## Accesses -/

theorem isWatched_of_isAccess (patience : Nat) {request : Request}
    (access : request.isAccess = true) (undisturbed : request.disturbs port = false)
    (session : Session) : IsWatched port session (session.perform setup patience request).1 := by
  obtain ⟨act, acts⟩ := acts_of_isAccess setup patience access
  have allowed := acts.allowed session.view
  rw [acts.performs, edited]
  cases made : (act session.view).1 with
  | writePort named value => exact Ports.watches_write session.machine.ports port named value
  | drivePort named value =>
      rw [made] at allowed
      obtain ⟨number, rfl, _⟩ := allowed
      refine ⟨[], [], Ports.watches_drive _ ?_ _⟩
      rintro rfl
      exact beq_eq_false_iff_ne.1 undisturbed rfl
  | observePort named observer =>
      rw [made] at allowed
      obtain rfl : request = .observePort named.toNat observer := allowed
      refine ⟨[], [], Ports.watches_observe _ ?_ _⟩
      rintro rfl
      exact beq_eq_false_iff_ne.1 undisturbed rfl
  | _ => exact isWatched_of_ports rfl

/-! ## Requests -/

theorem isWatched_perform (patience : Nat) (request : Request)
    (undisturbed : request.disturbs port = false) (session : Session) :
    IsWatched port session (session.perform setup patience request).1 := by
  cases request using Request.byKind with
  | execution request execution =>
      exact isWatched_of_moves port (moves_of_isExecution patience execution session)
  | access request access => exact isWatched_of_isAccess patience access undisturbed session
  | reset => cases undisturbed
  | addBreakpoint address => exact isWatched_of_ports rfl
  | removeBreakpoint address => exact isWatched_of_ports rfl
  | clearBreakpoints => exact isWatched_of_ports rfl
  | setTracing value => exact isWatched_of_ports rfl
  | getTrace => exact isWatched_of_ports rfl
  | clearTrace => exact isWatched_of_ports rfl

theorem isWatched_performAll (patience : Nat) (requests : List Request)
    (undisturbed : ∀ request ∈ requests, request.disturbs port = false) (session : Session) :
    IsWatched port session (session.performAll setup patience requests).1 := by
  induction requests generalizing session with
  | nil => exact isWatched_of_ports rfl
  | cons request rest inductionHypothesis =>
      obtain ⟨undisturbedFirst, undisturbedRest⟩ := List.forall_mem_cons.1 undisturbed
      exact (isWatched_perform patience request undisturbedFirst session).trans
        (inductionHypothesis undisturbedRest _)

/-- With every opcode table and every configuration, whatever the session, the observers of a port
and the requests: as long as no request disturbs the port, what its observers are told leads from its
value before to its value after by changes of which none is empty, each change is told to all of them
in the order of registration before the next, and so every observer hears of the same changes. -/
theorem performAll_watches (setup : Setup) (patience : Nat) (session : Session) (port : UInt8)
    (requests : List Request)
    (undisturbed : ∀ request ∈ requests, request.disturbs port = false) :
    ∃ told changes,
      Ports.Watches port session.machine.ports
        (session.performAll setup patience requests).1.machine.ports told changes ∧
      ∀ observer, Ports.heardBy observer port told = changes.flatMap fun change =>
        List.replicate ((session.machine.ports.observersOf port).count observer) change := by
  obtain ⟨told, changes, watches⟩ := isWatched_performAll patience requests undisturbed session
  exact ⟨told, changes, watches, watches.heardBy⟩

/-- An output to port 1, which two observers watch, and the end of the program. -/
def watchedOutput : Session :=
  { Session.initial (.ofProfile .datasheet) with
    machine := { Machine.initial with
      registers := { Registers.zeroed with a := 7 }
      memory := (Memory.blank.write 0 0xD3).write 1 1 |>.write 2 0x76
      ports := (Ports.silent.observe 1 "lamp").observe 1 "meter" } }

/-- The host runs the program, writes the same value again, then another one and one elsewhere. -/
def watchedRequests : List Request :=
  [.run none none, .writePort 1 7, .writePort 1 263, .writePort 2 9, .writePort 1 0]

theorem performAll_watches_of_output :
    (watchedOutput.performAll { table := .standard, config := .ofProfile .datasheet } 9
      watchedRequests).1.machine.ports.events =
      [⟨"lamp", 1, 0, 7⟩, ⟨"meter", 1, 0, 7⟩, ⟨"lamp", 1, 7, 0⟩, ⟨"meter", 1, 7, 0⟩] ∧
    ∃ told changes,
      Ports.Watches 1 watchedOutput.machine.ports
        (watchedOutput.performAll { table := .standard, config := .ofProfile .datasheet } 9
          watchedRequests).1.machine.ports told changes ∧
      ∀ observer, Ports.heardBy observer 1 told = changes.flatMap fun change =>
        List.replicate ((watchedOutput.machine.ports.observersOf 1).count observer) change := by
  have undisturbed : ∀ request ∈ watchedRequests, request.disturbs 1 = false := by decide
  exact ⟨by decide, performAll_watches _ 9 watchedOutput 1 watchedRequests undisturbed⟩

end Session

end Intel8085
