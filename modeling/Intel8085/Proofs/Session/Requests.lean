import Intel8085.Proofs.Machine.Stretches
import Intel8085.Session.Request
import Mathlib.Logic.Relation

/-!
# Requests in general

Most requests of a host read or change the machine or the halt and nothing else.  Such an access is
known by the edit that it makes of what it sees, and a request that is not meant for a port makes none
to the ports (`acts_of_isAccess`); so it neither sees the trace nor touches it
(`accesses_of_isAccess`).  The requests that carry out instructions are made of a few kinds of moves,
so what every move keeps they keep (`moves_of_isExecution`).  The few that are left concern the
breakpoints and the trace, and a proof goes through them one by one (`Request.byKind`).

A host asks for one thing after the other, and a request that is refused does not keep the later ones
from being done (`performAll`).
-/

set_option autoImplicit false

namespace Intel8085

/-- The request concerns the machine or the halt, or lists the breakpoints: it carries out no
instruction, leaves the breakpoints alone and has nothing to do with the trace. -/
def Request.isAccess : Request → Bool
  | .reset => false
  | .step => false
  | .attempt => false
  | .steps _ => false
  | .run _ _ => false
  | .resume _ _ => false
  | .addBreakpoint _ => false
  | .removeBreakpoint _ => false
  | .clearBreakpoints => false
  | .setTracing _ => false
  | .getTrace => false
  | .clearTrace => false
  | _ => true

/-- The request carries out instructions. -/
def Request.isExecution : Request → Bool
  | .step => true
  | .attempt => true
  | .steps _ => true
  | .run _ _ => true
  | .resume _ _ => true
  | _ => false

/-- Executions and accesses are each treated as one, and what concerns the breakpoints and the trace
request by request. -/
theorem Request.byKind {motive : Request → Prop}
    (execution : ∀ request : Request, request.isExecution = true → motive request)
    (access : ∀ request : Request, request.isAccess = true → motive request)
    (reset : motive .reset) (addBreakpoint : ∀ address, motive (.addBreakpoint address))
    (removeBreakpoint : ∀ address, motive (.removeBreakpoint address))
    (clearBreakpoints : motive .clearBreakpoints) (setTracing : ∀ value, motive (.setTracing value))
    (getTrace : motive .getTrace) (clearTrace : motive .clearTrace) (request : Request) :
    motive request := by
  cases request with
  | reset => exact reset
  | addBreakpoint address => exact addBreakpoint address
  | removeBreakpoint address => exact removeBreakpoint address
  | clearBreakpoints => exact clearBreakpoints
  | setTracing value => exact setTracing value
  | getTrace => exact getTrace
  | clearTrace => exact clearTrace
  | step => exact execution _ rfl
  | attempt => exact execution _ rfl
  | steps count => exact execution _ rfl
  | run maxSteps polls => exact execution _ rfl
  | resume maxSteps polls => exact execution _ rfl
  | _ => exact access _ rfl

namespace Session

/-- Does what a host asks for, one request after the other.  The answers are in the order of the
requests. -/
def performAll (setup : Setup) (patience : Nat) :
    List Request → Session → Session × List (Except Refusal Reply)
  | [], session => (session, [])
  | request :: rest, session =>
      let (after, answer) := session.perform setup patience request
      let (last, answers) := performAll setup patience rest after
      (last, answer :: answers)

/-- The session with the switch of its trace and its trace replaced. -/
def withTrace (session : Session) (tracing : Bool) (trace : Recent TraceLine) : Session :=
  { session with tracing, trace }

/-! ## Accesses -/

/-- What an access sees of a session: everything but the observers of the ports and their journal, the
last error, and the trace. -/
structure View where
  registers : Registers
  memory : Memory
  values : Bank UInt8 8
  halted : Bool
  steps : Nat
  breakpoints : List UInt16

/-- What an access does to a session. -/
inductive Edit where
  | nothing
  | store (registers : Registers) (memory : Memory)
  | mark (halted : Bool)
  | writePort (port value : UInt8)
  | drivePort (port value : UInt8)
  | observePort (port : UInt8) (observer : String)

def view (session : Session) : View where
  registers := session.machine.registers
  memory := session.machine.memory
  values := session.machine.ports.values
  halted := session.halted
  steps := session.steps
  breakpoints := session.breakpoints

def edit (session : Session) : Edit → Session
  | .nothing => session
  | .store registers memory =>
      { session with machine := { session.machine with registers, memory } }
  | .mark halted => { session with halted }
  | .writePort port value => session.setPorts (session.machine.ports.write port value)
  | .drivePort port value => session.setPorts (session.machine.ports.drive port value)
  | .observePort port observer => session.setPorts (session.machine.ports.observe port observer)

/-- The session with what an access does to it, and the answer. -/
def edited (session : Session) (act : Edit × Except Refusal Reply) :
    Session × Except Refusal Reply :=
  (session.edit act.1, act.2)

/-- The answer to a host that set registers. -/
def answerOfSetting : Except Fault Unit → Except Refusal Reply
  | .ok _ => .ok .nothing
  | .error fault => .error (.fault fault)

/-- An access that may be refused for a fault, and then does nothing. -/
def granted {Value : Type} (result : Except Fault Value) (edit : Value → Edit)
    (reply : Value → Reply) : Edit × Except Refusal Reply :=
  match result with
  | .ok value => (edit value, .ok (reply value))
  | .error fault => (.nothing, .error (.fault fault))

namespace View

def setRegisters (view : View) (registers : Registers) : Edit :=
  .store registers view.memory

def setMemory (view : View) (memory : Memory) : Edit :=
  .store view.registers memory

/-- A machine with the registers and the memory that an access sees. -/
def machine (view : View) : Machine :=
  { registers := view.registers, memory := view.memory, ports := .silent }

def loadImage (view : View) (image : List UInt8) (base : Int) (reply : Reply) :
    Edit × Except Refusal Reply :=
  granted (view.memory.load image base) view.setMemory fun _ => reply

end View

end Session

/-- The registers that the host set, one after the other, up to the first fault. -/
def Registers.setAll (registers : Registers) :
    List (HostValue × Int) → Registers × Except Fault Unit
  | [] => (registers, .ok ())
  | (name, value) :: rest =>
      match HostRegister.ofName name with
      | .error fault => (registers, .error fault)
      | .ok register =>
          match registers.hostWrite register value with
          | .error fault => (registers, .error fault)
          | .ok written => written.setAll rest

/-- Only requests that are meant for a port touch the ports, and they touch the one that they name;
and only a request for it marks the halt. -/
def Request.allows (request : Request) : Session.Edit → Prop
  | .mark halted => request = .setHalted halted
  | .writePort port value =>
      ∃ number, request = .writePort port.toNat number ∧ value = byteOf number
  | .drivePort port value =>
      ∃ number, request = .drivePort port.toNat number ∧ value = byteOf number
  | .observePort port observer => request = .observePort port.toNat observer
  | _ => True

namespace Session

/-- What a request does is a function of what an access sees. -/
structure Acts (setup : Setup) (patience : Nat) (request : Request)
    (act : View → Edit × Except Refusal Reply) : Prop where
  performs : ∀ session : Session,
    session.perform setup patience request = session.edited (act session.view)
  allowed : ∀ view, request.allows (act view).1

section Acts

variable {setup : Setup} {patience : Nat} {request : Request} {Value : Type}

theorem answer_eq (session : Session) (result : Except Fault Value) (reply : Value → Reply) :
    session.answer result reply = session.edited (granted result (fun _ => .nothing) reply) := by
  cases result <;> rfl

theorem change_eq {session : Session} {update : Value → Session} {change : Value → Edit}
    (same : ∀ value, update value = session.edit (change value)) (result : Except Fault Value) :
    session.change result update = session.edited (granted result change fun _ => .nothing) := by
  cases result with
  | error fault => rfl
  | ok value => exact congrArg (fun after => (after, Except.ok Reply.nothing)) (same value)

theorem loadImage_eq (session : Session) (image : List UInt8) (base : Int) (reply : Reply) :
    session.loadImage image base reply =
      session.edited (session.view.loadImage image base reply) := by
  have sameMemory : session.view.memory = session.machine.memory := rfl
  rw [loadImage, View.loadImage, sameMemory]
  cases session.machine.memory.load image base <;> rfl

theorem setAll_eq (values : List (HostValue × Int)) (session : Session) :
    session.setAll values = (session.setRegisters (session.machine.registers.setAll values).1,
      (session.machine.registers.setAll values).2) := by
  induction values generalizing session with
  | nil => rfl
  | cons entry rest inductionHypothesis =>
      obtain ⟨name, value⟩ := entry
      simp only [setAll, Registers.setAll]
      cases HostRegister.ofName name with
      | error fault => rfl
      | ok register =>
          cases written : session.machine.registers.hostWrite register value with
          | error fault =>
              simp only [written]
              rfl
          | ok registers =>
              simp only [written]
              exact inductionHypothesis (session.setRegisters registers)

/-- The request reads. -/
theorem acts_reading (reply : View → Except Refusal Reply)
    (performs : ∀ session : Session,
      session.perform setup patience request = (session, reply session.view)) :
    ∃ act, Acts setup patience request act :=
  ⟨fun view => (.nothing, reply view), performs, fun _ => trivial⟩

/-- The request changes registers, memory or both. -/
theorem acts_storing (registers : View → Registers) (memory : View → Memory)
    (reply : View → Except Refusal Reply)
    (performs : ∀ session : Session, session.perform setup patience request =
      (session.edit (.store (registers session.view) (memory session.view)),
        reply session.view)) :
    ∃ act, Acts setup patience request act :=
  ⟨fun view => (.store (registers view) (memory view), reply view), performs, fun _ => trivial⟩

/-- The request reads, unless it is refused for a fault. -/
theorem acts_answer (result : View → Except Fault Value) (reply : View → Value → Reply)
    (performs : ∀ session : Session, session.perform setup patience request =
      session.answer (result session.view) (reply session.view)) :
    ∃ act, Acts setup patience request act := by
  refine ⟨fun view => granted (result view) (fun _ => .nothing) (reply view), ?_, ?_⟩
  · intro session
    rw [performs, answer_eq]
  · intro view
    cases result view <;> trivial

/-- The request makes an edit that is allowed to it, unless it is refused for a fault. -/
theorem acts_change (result : View → Except Fault Value) (change : View → Value → Edit)
    {update : Session → Value → Session}
    (performs : ∀ session : Session, session.perform setup patience request =
      session.change (result session.view) (update session))
    (same : ∀ (session : Session) value,
      update session value = session.edit (change session.view value))
    (allowed : ∀ view value, result view = .ok value → request.allows (change view value)) :
    ∃ act, Acts setup patience request act := by
  refine ⟨fun view => granted (result view) (change view) fun _ => .nothing, ?_, ?_⟩
  · intro session
    rw [performs, change_eq (same session)]
  · intro view
    cases found : result view with
    | error fault => trivial
    | ok value => exact allowed view value found

theorem acts_loadImage {image : List UInt8} {base : Int} {reply : Reply}
    (performs : ∀ session : Session, session.perform setup patience request =
      session.loadImage image base reply) : ∃ act, Acts setup patience request act := by
  refine ⟨fun view => view.loadImage image base reply, ?_, ?_⟩
  · intro session
    rw [performs, loadImage_eq]
  · intro view
    rw [View.loadImage]
    cases view.memory.load image base <;> trivial

/-- Every access does what it does by what it sees. -/
theorem acts_of_isAccess (setup : Setup) (patience : Nat) {request : Request}
    (access : request.isAccess = true) : ∃ act, Acts setup patience request act := by
  cases request with
  | load image base => exact acts_loadImage fun _ => rfl
  | loadNumbers numbers base =>
      cases found : bytesOf? numbers with
      | some image =>
          apply @acts_loadImage _ _ _ image base .nothing
          simp only [perform, found, implies_true]
      | none =>
          apply acts_reading fun _ => .error .notBytes
          simp only [perform, found, implies_true]
  | loadFilled value count base =>
      by_cases byte : 0 ≤ value ∧ value ≤ 0xFF
      · exact acts_change (fun view => view.memory.fill (byteOf value) count.toNat base)
          View.setMemory (fun _ => if_pos byte) (fun _ _ => rfl) fun _ _ _ => trivial
      · exact acts_reading (fun _ => .error .notBytes) fun _ => if_neg byte
  | assemble source base =>
      cases assembled : Assembly.assemble setup.table setup.config.operandOrder source with
      | ok program =>
          apply @acts_loadImage _ _ _ program.code base (.bytes program.code)
          simp only [perform, assembled, implies_true]
      | error failure =>
          apply acts_reading fun _ => .error (.assembly failure)
          simp only [perform, assembled, implies_true]
  | readMemory address =>
      exact acts_answer (fun view => view.memory.read? address)
        (fun _ byte => .number byte.toNat) fun _ => rfl
  | readPort number =>
      exact acts_answer (fun _ => Ports.port number)
        (fun view port => .number (view.values.get port.toNat).toNat) fun _ => rfl
  | getRegister name =>
      exact acts_answer (fun _ => HostRegister.ofName name)
        (fun view register => .number (view.registers.hostRead register)) fun _ => rfl
  | getFlag position =>
      exact acts_answer (fun _ => statusPosition position)
        (fun view position => .truth (view.registers.statusBit position)) fun _ => rfl
  | hexDump start length =>
      exact acts_answer (fun view => HexDump.dump view.memory start length) (fun _ => .text)
        fun _ => rfl
  | snapshot start length =>
      exact acts_answer (fun view => view.memory.snapshot start length) (fun _ => .bytes)
        fun _ => rfl
  | writeMemory address value =>
      exact acts_change (fun view => view.memory.write? address value) View.setMemory
        (fun _ => rfl) (fun _ _ => rfl) fun _ _ _ => trivial
  | writePort number value =>
      refine acts_change (fun _ => Ports.port number) (fun _ port => .writePort port (byteOf value))
        (fun _ => rfl) (fun _ _ => rfl) fun _ port named => ⟨value, ?_, rfl⟩
      rw [Ports.eq_toNat_of_port named]
  | drivePort number value =>
      refine acts_change (fun _ => Ports.port number) (fun _ port => .drivePort port (byteOf value))
        (fun _ => rfl) (fun _ _ => rfl) fun _ port named => ⟨value, ?_, rfl⟩
      rw [Ports.eq_toNat_of_port named]
  | observePort number observer =>
      refine acts_change (fun _ => Ports.port number) (fun _ port => .observePort port observer)
        (fun _ => rfl) (fun _ _ => rfl) fun _ port named => ?_
      rw [Ports.eq_toNat_of_port named]
      rfl
  | setRegister name value =>
      exact acts_change
        (fun view => HostRegister.ofName name >>= fun register =>
          view.registers.hostWrite register value)
        View.setRegisters (fun _ => rfl) (fun _ _ => rfl) fun _ _ _ => trivial
  | setRegisters values =>
      refine ⟨fun view => (view.setRegisters (view.registers.setAll values).1,
        answerOfSetting (view.registers.setAll values).2), ?_, fun _ => trivial⟩
      intro session
      rw [perform, setAll_eq]
      have sameRegisters : session.view.registers = session.machine.registers := rfl
      rw [sameRegisters]
      rcases session.machine.registers.setAll values with ⟨registers, fault | done⟩ <;> rfl
  | setFlag position value =>
      exact acts_change (fun _ => statusPosition position)
        (fun view position => view.setRegisters (view.registers.setStatusBit position value))
        (fun _ => rfl) (fun _ _ => rfl) fun _ _ _ => trivial
  | listBreakpoints =>
      exact acts_reading (fun view => .ok (.addresses view.breakpoints)) fun _ => rfl
  | setHalted value =>
      exact ⟨fun _ => (.mark value, .ok .nothing), fun _ => rfl, fun _ => rfl⟩
  | getState =>
      exact acts_reading (fun view =>
        .ok (.state view.registers view.halted view.steps view.values.toList)) fun _ => rfl
  | memorySize => exact acts_reading (fun _ => .ok (.number Memory.size)) fun _ => rfl
  | clearMemory =>
      exact acts_storing View.registers (fun _ => .blank) (fun _ => .ok .nothing) fun _ => rfl
  | getSlot slot =>
      cases found : Register.ofSlot? slot with
      | some register =>
          apply acts_reading fun view => .ok (.number (view.registers.read register).toNat)
          simp only [perform, found]
          exact fun _ => rfl
      | none =>
          apply acts_reading fun _ => .error .noSlot
          simp only [perform, found, implies_true]
  | setSlot slot value =>
      cases found : Register.ofSlot? slot with
      | some register =>
          apply acts_storing (fun view => view.registers.write register (byteOf value)) View.memory
            fun _ => .ok .nothing
          simp only [perform, found]
          exact fun _ => rfl
      | none =>
          apply acts_reading fun _ => .error .noSlot
          simp only [perform, found, implies_true]
  | getPair name =>
      cases found : Pair.ofToken? name with
      | some pair =>
          apply acts_reading fun view => .ok (.number (view.registers.pair pair).toNat)
          simp only [perform, found]
          exact fun _ => rfl
      | none =>
          apply acts_reading fun _ => .error .noPair
          simp only [perform, found, implies_true]
  | setPair name value =>
      cases found : Pair.ofToken? name with
      | some pair =>
          apply acts_storing (fun view => view.registers.setPair pair (wordOf value)) View.memory
            fun _ => .ok .nothing
          simp only [perform, found]
          exact fun _ => rfl
      | none =>
          apply acts_reading fun _ => .error .noPair
          simp only [perform, found, implies_true]
  | replaceStatus mask value =>
      exact acts_storing (fun view => view.registers.replaceStatus mask (byteOf value)) View.memory
        (fun _ => .ok .nothing) fun _ => rfl
  | pushWord value =>
      exact acts_storing (fun view => (view.machine.push (wordOf value)).registers)
        (fun view => (view.machine.push (wordOf value)).memory) (fun _ => .ok .nothing) fun _ => rfl
  | pullWord =>
      exact acts_storing (fun view => view.machine.pull.registers) View.memory
        (fun view => .ok (.number view.machine.top.toNat)) fun _ => rfl
  | getFlags =>
      exact acts_reading (fun view => .ok (.truths
        ([.sign, .zero, .auxiliaryCarry, .parity, .carry].map view.registers.statusFlag)))
        fun _ => rfl
  | getStatusFlag flag =>
      exact acts_reading (fun view => .ok (.truth (view.registers.statusFlag flag))) fun _ => rfl
  | getPart part =>
      exact acts_reading (fun view => .ok (.number (view.registers.readPart part))) fun _ => rfl
  | setPart part value =>
      exact acts_storing (fun view => view.registers.writePart part value) View.memory
        (fun _ => .ok .nothing) fun _ => rfl
  | _ => cases access

end Acts

/-! ## What accesses leave alone -/

/-- What is done to a session changes no more than its machine and its halt, and comes out the same
whatever the trace. -/
structure Accesses {Answer : Type} (session : Session) (action : Session → Session × Answer) :
    Prop where
  unseen : ∀ tracing trace, action (session.withTrace tracing trace) =
    ((action session).1.withTrace tracing trace, (action session).2)
  edits : ∃ machine halted, (action session).1 = { session with machine, halted }

theorem accesses_of_isAccess (setup : Setup) (patience : Nat) {request : Request}
    (access : request.isAccess = true) (session : Session) :
    session.Accesses (perform setup patience request) := by
  obtain ⟨act, acts⟩ := acts_of_isAccess setup patience access
  constructor
  case unseen =>
    intro tracing trace
    have sameView : (session.withTrace tracing trace).view = session.view := rfl
    simp only [acts.performs, sameView, edited]
    cases (act session.view).1 <;> rfl
  case edits =>
    simp only [acts.performs, edited]
    cases (act session.view).1 with
    | mark halted => exact ⟨session.machine, halted, rfl⟩
    | _ => exact ⟨_, session.halted, rfl⟩

/-- Any other access changes the machine at most. -/
theorem exists_machine_of_isAccess (setup : Setup) (patience : Nat) {request : Request}
    (access : request.isAccess = true) (noMark : ∀ halted, request ≠ .setHalted halted)
    (session : Session) : ∃ machine,
      (session.perform setup patience request).1 = { session with machine } := by
  obtain ⟨act, acts⟩ := acts_of_isAccess setup patience access
  have allowed := acts.allowed session.view
  rw [acts.performs, edited]
  cases made : (act session.view).1 with
  | mark halted =>
      rw [made] at allowed
      exact absurd allowed (noMark halted)
  | _ => exact ⟨_, rfl⟩

/-! ## Executions -/

/-- What carrying out instructions is made of. -/
inductive Moves (setup : Setup) : Session → Session → Prop where
  | attempt (session : Session) : Moves setup session (session.attempt setup).1
  | mark (session : Session) (halted : Bool) (lastError : Option Fault) :
      Moves setup session { session with halted, lastError }
  | goTo (session : Session) (address : UInt16) : Moves setup session (session.goTo address)

section Moves

open Relation

variable {setup : Setup}

theorem moves_attempt {session after : Session} {outcome : Outcome}
    (attempted : session.attempt setup = (after, outcome)) :
    ReflTransGen (Moves setup) session after := by
  have moved : Moves setup session (session.attempt setup).1 := .attempt session
  rw [attempted] at moved
  exact .single moved

theorem moves_step {session after : Session} {result : Except Defect (Option StopReason)}
    (stepped : session.step setup = (after, result)) :
    ReflTransGen (Moves setup) session after := by
  rw [step] at stepped
  rcases attempted : session.attempt setup with ⟨reached, outcome⟩
  have moved := moves_attempt attempted
  rw [attempted] at stepped
  cases outcome with
  | completed stop =>
      cases stepped
      exact moved
  | fault fault =>
      cases stepped
      exact moved.tail (.mark reached true (some fault))
  | defect defect =>
      cases stepped
      exact moved

theorem moves_stepsFrom (found : List (Option StopReason × Registers)) (count : Nat)
    (session : Session) :
    ReflTransGen (Moves setup) session (session.stepsFrom setup found count).1 := by
  induction count generalizing found session with
  | zero => exact .refl
  | succ count inductionHypothesis =>
      rw [stepsFrom]
      rcases stepped : session.step setup with ⟨after, result⟩
      cases result with
      | error defect => exact moves_step stepped
      | ok stop =>
          cases stop with
          | some reason => exact moves_step stepped
          | none => exact (moves_step stepped).trans (inductionHypothesis _ after)

theorem moves_turns (bounds : Bounds) (patience executed : Nat) (session : Session) :
    ReflTransGen (Moves setup) session (turns setup bounds patience executed session).1 := by
  induction patience generalizing executed session with
  | zero => exact .refl
  | succ patience inductionHypothesis =>
      rw [turns]
      cases session.stopBefore bounds executed with
      | some reason => exact .refl
      | none =>
          simp only
          rcases stepped : session.step setup with ⟨after, result⟩
          cases result with
          | error defect => exact moves_step stepped
          | ok stop =>
              cases stop with
              | some reason => exact moves_step stepped
              | none => exact (moves_step stepped).trans (inductionHypothesis (executed + 1) after)

theorem moves_resume (patience : Nat) (maxSteps polls : Option Int) (session : Session) :
    ReflTransGen (Moves setup) session (session.resume setup patience maxSteps polls).1 := by
  have turned : ReflTransGen (Moves setup) session
      (turns setup (boundsOf setup.config maxSteps polls) patience 0 session.start).1 :=
    .head (.mark session false none) (moves_turns _ patience 0 session.start)
  rw [resume]
  rcases reached : turns setup (boundsOf setup.config maxSteps polls) patience 0 session.start
    with ⟨after, outcome⟩
  rw [reached] at turned
  cases outcome with
  | stopped reason => exact turned.tail (.mark after true after.lastError)
  | failed defect => exact turned
  | unfinished => exact turned

theorem fst_answerRun (result : Session × RunOutcome) : (answerRun result).1 = result.1 := by
  rcases result with ⟨after, outcome⟩
  cases outcome <;> rfl

section Left

variable (patience : Nat) (session : Session)

theorem left_step :
    (session.perform setup patience .step).1 = (session.step setup).1 := by
  rw [perform]
  rcases session.step setup with ⟨after, result⟩
  cases result <;> rfl

theorem left_attempt :
    (session.perform setup patience .attempt).1 = (session.attempt setup).1 := by
  rw [perform]
  rcases session.attempt setup with ⟨after, outcome⟩
  cases outcome <;> rfl

theorem left_steps (count : Nat) :
    (session.perform setup patience (.steps count)).1 =
      (session.stepsFrom setup [] count).1 := by
  rw [perform]
  rcases session.stepsFrom setup [] count with ⟨after, result⟩
  cases result <;> rfl

theorem left_run (maxSteps polls : Option Int) :
    (session.perform setup patience (.run maxSteps polls)).1 =
      (session.run setup patience maxSteps polls).1 :=
  fst_answerRun _

theorem left_resume (maxSteps polls : Option Int) :
    (session.perform setup patience (.resume maxSteps polls)).1 =
      (session.resume setup patience maxSteps polls).1 :=
  fst_answerRun _

end Left

theorem moves_of_isExecution (patience : Nat) {request : Request}
    (execution : request.isExecution = true) (session : Session) :
    ReflTransGen (Moves setup) session (session.perform setup patience request).1 := by
  cases request with
  | step =>
      rw [left_step]
      exact moves_step rfl
  | attempt =>
      rw [left_attempt]
      exact moves_attempt rfl
  | steps count =>
      rw [left_steps]
      exact moves_stepsFrom [] count session
  | run maxSteps polls =>
      rw [left_run]
      exact .head (.goTo session 0) (moves_resume patience maxSteps polls (session.goTo 0))
  | resume maxSteps polls =>
      rw [left_resume]
      exact moves_resume patience maxSteps polls session
  | _ => cases execution

end Moves

/-! ## Sequences of requests -/

/-- What holds at the beginning and is kept by every request holds at the end. -/
theorem holds_performAll {setup : Setup} {patience : Nat} {Holds : Session → Prop}
    (kept : ∀ request session, Holds session → Holds (session.perform setup patience request).1)
    (requests : List Request) {session : Session} (holds : Holds session) :
    Holds (session.performAll setup patience requests).1 := by
  induction requests generalizing session with
  | nil => exact holds
  | cons request rest inductionHypothesis => exact inductionHypothesis (kept request session holds)

end Session

end Intel8085
