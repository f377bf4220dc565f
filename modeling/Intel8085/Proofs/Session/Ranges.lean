import Intel8085.Proofs.Session.Faults
import Intel8085.Proofs.Session.Requests
import Intel8085.Proofs.Storage.Cells

/-!
# Ranges

Whatever a host asks for, with whatever integers, with every opcode table, and whether a request is
refused or not: the trace keeps the limit that it was made with, and the breakpoints stay in ascending
order (`isKept_performAll`).  So what the host then reads of memory, ports, registers, breakpoints and
trace is within its range (`inRange_of_isKept`).
-/

set_option autoImplicit false

namespace Intel8085

/-! ## Addresses in ascending order -/

theorem mem_insertAddress {address other : UInt16} {addresses : List UInt16} :
    other ∈ insertAddress address addresses ↔ other = address ∨ other ∈ addresses := by
  induction addresses with
  | nil => simp [insertAddress]
  | cons first rest inductionHypothesis =>
      rw [insertAddress]
      split
      · exact List.mem_cons
      · split
        · rename_i same
          rw [same, List.mem_cons, or_self_left]
        · rw [List.mem_cons, inductionHypothesis, List.mem_cons, or_left_comm]

theorem pairwise_insertAddress {addresses : List UInt16} (ascending : addresses.Pairwise (· < ·))
    (address : UInt16) : (insertAddress address addresses).Pairwise (· < ·) := by
  induction addresses with
  | nil => exact List.pairwise_singleton _ _
  | cons first rest inductionHypothesis =>
      obtain ⟨above, ascendingRest⟩ := List.pairwise_cons.1 ascending
      rw [insertAddress]
      split
      · rename_i below
        refine List.pairwise_cons.2 ⟨?_, ascending⟩
        intro other member
        rcases List.mem_cons.1 member with rfl | later
        · exact below
        · exact UInt16.lt_trans below (above other later)
      · rename_i notBelow
        split
        · exact ascending
        · rename_i distinct
          refine List.pairwise_cons.2 ⟨?_, inductionHypothesis ascendingRest⟩
          intro other member
          rcases mem_insertAddress.1 member with rfl | later
          · exact UInt16.lt_of_le_of_ne (UInt16.not_lt.1 notBelow) (Ne.symm distinct)
          · exact above other later

/-! ## Slots -/

theorem ofSlot?_eq_none_iff {slot : Int} :
    Register.ofSlot? slot = none ↔ ¬ (-8 ≤ slot ∧ slot ≤ 7) := by
  have eight : Register.all.length = 8 := rfl
  rw [Register.ofSlot?]
  split
  · split
    · simp only [true_iff]
      omega
    · rw [List.getElem?_eq_none_iff, eight]
      omega
  · rw [List.getElem?_eq_none_iff, eight]
    omega

namespace Session

/-! ## What every request keeps -/

/-- The trace has the limit of the configuration, and no breakpoint is listed twice or out of
order. -/
structure IsKept (config : Config) (session : Session) : Prop where
  limit : session.trace.limit = config.traceLimit
  ascending : session.breakpoints.Pairwise (· < ·)

section Kept

variable {setup : Setup} {session after : Session}

theorem limit_record (session : Session) (line : TraceLine) :
    (session.record line).trace.limit = session.trace.limit := by
  rw [record]
  split
  · exact Recent.limit_push _ _
  · rfl

theorem finish_keeps (session : Session) (line : TraceLine) (effect : Effect) :
    (session.finish line effect).1.breakpoints = session.breakpoints ∧
      (session.finish line effect).1.trace.limit = session.trace.limit := by
  rcases finish_leaves session line effect with ⟨machine, left, _⟩ | ⟨machine, halted, left⟩
  · rw [left]
    exact ⟨rfl, rfl⟩
  · rw [left]
    exact ⟨rfl, limit_record session line⟩

theorem attempt_keeps (setup : Setup) (session : Session) :
    (session.attempt setup).1.breakpoints = session.breakpoints ∧
      (session.attempt setup).1.trace.limit = session.trace.limit := by
  cases fetches : session.machine.memory.fetch setup session.programCounter with
  | error fault =>
      rw [attempt_of_not_fetched fetches]
      exact ⟨rfl, rfl⟩
  | ok fetched =>
      rw [attempt_of_fetched fetches, carryOut]
      split
      · exact ⟨rfl, rfl⟩
      · exact finish_keeps _ _ _

theorem isKept_of_moves {config : Config} (moves : Relation.ReflTransGen (Moves setup) session after)
    (kept : session.IsKept config) : after.IsKept config := by
  induction moves with
  | refl => exact kept
  | @tail reached _ _ move inductionHypothesis =>
      cases move with
      | attempt =>
          obtain ⟨breakpoints, limit⟩ := attempt_keeps setup reached
          refine ⟨limit.trans inductionHypothesis.limit, ?_⟩
          rw [breakpoints]
          exact inductionHypothesis.ascending
      | mark halted lastError =>
          exact ⟨inductionHypothesis.limit, inductionHypothesis.ascending⟩
      | goTo address =>
          exact ⟨inductionHypothesis.limit, inductionHypothesis.ascending⟩

theorem isKept_perform {config : Config} (patience : Nat) (request : Request)
    (kept : session.IsKept config) : (session.perform setup patience request).1.IsKept config := by
  cases request using Request.byKind with
  | execution request execution =>
      exact isKept_of_moves (moves_of_isExecution patience execution session) kept
  | access request access =>
      obtain ⟨machine, halted, edited⟩ :=
        (accesses_of_isAccess setup patience access session).edits
      rw [edited]
      exact ⟨kept.limit, kept.ascending⟩
  | reset => exact ⟨kept.limit, .nil⟩
  | addBreakpoint address =>
      exact ⟨kept.limit, pairwise_insertAddress kept.ascending (wordOf address)⟩
  | removeBreakpoint address => exact ⟨kept.limit, kept.ascending.sublist List.erase_sublist⟩
  | clearBreakpoints => exact ⟨kept.limit, .nil⟩
  | setTracing value => exact ⟨kept.limit, kept.ascending⟩
  | getTrace => exact ⟨kept.limit, kept.ascending⟩
  | clearTrace => exact ⟨kept.limit, kept.ascending⟩

theorem isKept_performAll {config : Config} (patience : Nat) (requests : List Request)
    (kept : session.IsKept config) :
    (session.performAll setup patience requests).1.IsKept config :=
  holds_performAll (fun request _ => isKept_perform patience request) requests kept

end Kept

/-! ## What the host reads -/

/-- The session answers with a number that is not below zero and not above the greatest one. -/
def Tells (setup : Setup) (patience : Nat) (session : Session) (request : Request)
    (greatest : Int) : Prop :=
  ∃ value : Int, session.perform setup patience request = (session, .ok (.number value)) ∧
    0 ≤ value ∧ value ≤ greatest

/-- What the host reads is within its range, and nothing is to be read beyond. -/
structure InRange (setup : Setup) (patience : Nat) (session : Session) : Prop where
  cells : ∀ address : Int, 0 ≤ address ∧ address ≤ 0xFFFF →
    session.Tells setup patience (.readMemory address) 0xFF
  noCell : ∀ address : Int, ¬ (0 ≤ address ∧ address ≤ 0xFFFF) →
    session.perform setup patience (.readMemory address) =
      (session, .error (.fault (.addressOutOfBounds address)))
  image : ∃ bytes, session.perform setup patience (.snapshot 0 0x10000) =
    (session, .ok (.bytes bytes)) ∧ bytes.length = 0x10000
  ports : ∀ port : Int, 0 ≤ port ∧ port ≤ 0xFF →
    session.Tells setup patience (.readPort port) 0xFF
  noPort : ∀ port : Int, ¬ (0 ≤ port ∧ port ≤ 0xFF) →
    session.perform setup patience (.readPort port) =
      (session, .error (.fault (.portOutOfBounds port)))
  values : ∃ registers halted steps values, session.perform setup patience .getState =
    (session, .ok (.state registers halted steps values)) ∧ values.length = 0x100
  slots : ∀ slot : Int, -8 ≤ slot ∧ slot ≤ 7 → session.Tells setup patience (.getSlot slot) 0xFF
  noSlot : ∀ slot : Int, ¬ (-8 ≤ slot ∧ slot ≤ 7) →
    session.perform setup patience (.getSlot slot) = (session, .error .noSlot)
  bytes : ∀ register, session.Tells setup patience (.getPart (.byte register)) 0xFF
  pairs : ∀ pair, session.Tells setup patience (.getPart (.pair pair)) 0xFFFF
  programCounter : session.Tells setup patience (.getPart .programCounter) 0xFFFF
  breakpoints : ∃ addresses, session.perform setup patience .listBreakpoints =
    (session, .ok (.addresses addresses)) ∧ addresses.Pairwise (· < ·) ∧
      ∀ address ∈ addresses, address.toNat ≤ 0xFFFF
  trace : 0 < setup.config.traceLimit → session.trace.toList.length ≤ setup.config.traceLimit

section Reads

variable {setup : Setup} {patience : Nat} {session : Session} {request : Request}

theorem tells_of_byte {byte : UInt8}
    (answers : session.perform setup patience request = (session, .ok (.number byte.toNat))) :
    session.Tells setup patience request 0xFF := by
  have bound := byte.toNat_lt
  exact ⟨byte.toNat, answers, by omega, by omega⟩

theorem tells_of_word {word : UInt16}
    (answers : session.perform setup patience request = (session, .ok (.number word.toNat))) :
    session.Tells setup patience request 0xFFFF := by
  have bound := word.toNat_lt
  exact ⟨word.toNat, answers, by omega, by omega⟩

theorem perform_readMemory {address : Int} (inside : 0 ≤ address ∧ address ≤ 0xFFFF) :
    session.perform setup patience (.readMemory address) =
      (session, .ok (.number (session.machine.memory.read (wordOf address)).toNat)) := by
  simp only [perform, Memory.read?, Memory.address, if_pos inside]
  rfl

theorem perform_readMemory_outside {address : Int} (outside : ¬ (0 ≤ address ∧ address ≤ 0xFFFF)) :
    session.perform setup patience (.readMemory address) =
      (session, .error (.fault (.addressOutOfBounds address))) := by
  simp only [perform, Memory.read?, Memory.address, if_neg outside]
  rfl

theorem perform_readPort {port : Int} (inside : 0 ≤ port ∧ port ≤ 0xFF) :
    session.perform setup patience (.readPort port) =
      (session, .ok (.number (session.machine.ports.read (byteOf port)).toNat)) := by
  simp only [perform, Ports.port, if_pos inside]
  rfl

theorem perform_readPort_outside {port : Int} (outside : ¬ (0 ≤ port ∧ port ≤ 0xFF)) :
    session.perform setup patience (.readPort port) =
      (session, .error (.fault (.portOutOfBounds port))) := by
  simp only [perform, Ports.port, if_neg outside]
  rfl

theorem perform_snapshot_whole :
    session.perform setup patience (.snapshot 0 0x10000) =
      (session, .ok (.bytes (session.machine.memory.toList.take 0x10000))) := by
  rfl

theorem length_trace_le (positive : 0 < session.trace.limit) :
    session.trace.toList.length ≤ session.trace.limit := by
  have bounded := session.trace.size_le
  rw [Recent.length_toList]
  omega

theorem inRange_of_isKept (kept : session.IsKept setup.config) :
    session.InRange setup patience where
  cells := fun _ inside => tells_of_byte (perform_readMemory inside)
  noCell := fun _ outside => perform_readMemory_outside outside
  image := by
    refine ⟨_, perform_snapshot_whole, ?_⟩
    rw [List.length_take, Bank.length_toList]
    rfl
  ports := fun _ inside => tells_of_byte (perform_readPort inside)
  noPort := fun _ outside => perform_readPort_outside outside
  values := ⟨_, _, _, _, rfl, Bank.length_toList session.machine.ports.values⟩
  slots := by
    intro slot inside
    have known : Register.ofSlot? slot ≠ none := fun missing => ofSlot?_eq_none_iff.1 missing inside
    obtain ⟨register, found⟩ := Option.ne_none_iff_exists'.1 known
    apply @tells_of_byte _ _ _ _ (session.machine.registers.read register)
    simp only [perform, found]
  noSlot := by
    intro slot outside
    simp only [perform, ofSlot?_eq_none_iff.2 outside]
  bytes := fun register => tells_of_byte rfl
  pairs := fun pair => tells_of_word rfl
  programCounter := tells_of_word rfl
  breakpoints := by
    refine ⟨session.breakpoints, rfl, kept.ascending, ?_⟩
    intro address _
    have bound := address.toNat_lt
    omega
  trace := by
    intro positive
    rw [← kept.limit] at positive ⊢
    exact length_trace_le positive

end Reads

end Session

end Intel8085
