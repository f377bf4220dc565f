import Intel8085.Proofs.Integers.Runs
import Intel8085.Proofs.Session.Ranges
import Mathlib.Data.Finset.Erase
import Mathlib.Data.Finset.Insert

/-!
# Requests on integers

What a host asks for, on a machine that holds integers.  The host gives integers of any size, and some
of them are checked, others cut to a byte or a word, and a slot may be counted from the end of the
register file.  What a request makes of a session it makes of the integers in it as well
(`perform_integers`, `performAll_integers`).
-/

set_option autoImplicit false

namespace Intel8085

namespace Handler

/-- An assignment to a slot by its number, which is counted from behind the last slot if it is below
zero. -/
def setSlot (slot value : Int) : Handler Unit :=
  let index := if slot < 0 then slot + 8 else slot
  if 0 ≤ index ∧ index < 8 then
    changeRegisters fun registers =>
      { registers with file := registers.file.set index.toNat (value % 256) }
  else throw .defect

def setProgramCounter (value : Int) : Handler Unit :=
  changeRegisters fun registers => registers.setProgramCounter value

/-- An assignment to a register by a host.  The value of a word must be a word. -/
def setChecked (register : HostRegister) (value : Int) : Handler Unit :=
  match register with
  | .byte named => setRegister named value
  | .stackPointer =>
      if 0 ≤ value ∧ value ≤ 0xFFFF then assignPair .stackPointer value else throw .fault
  | .programCounter =>
      if 0 ≤ value ∧ value ≤ 0xFFFF then setProgramCounter value else throw .fault

def setNamed (name : HostValue) (value : Int) : Handler Unit :=
  match HostRegister.ofName? name with
  | some register => setChecked register value
  | none => throw .fault

def setAllNamed : List (HostValue × Int) → Handler Unit
  | [] => return
  | (name, value) :: rest => do
      setNamed name value
      setAllNamed rest

def setFlag (position : Int) (value : Bool) : Handler Unit :=
  if 0 ≤ position ∧ position ≤ 7 then
    changeRegisters fun registers => registers.setStatusBit position.toNat value
  else throw .fault

def setPart (part : FilePart) (value : Int) : Handler Unit :=
  match part with
  | .byte named => setRegister named value
  | .pair named => assignPair named value
  | .programCounter => setProgramCounter value

def clearMemory : Handler Unit :=
  modify fun machine => { machine with memory := List.replicate 65536 0 }

/-- An image of integers, each of which must be a byte. -/
def loadNumbers (numbers : List Int) (base : Int) : Handler Unit :=
  if numbers.all fun number => 0 ≤ number && number ≤ 0xFF then loadImage numbers base
  else throw .defect

/-- What a request does to the machine.  Those that only read do nothing. -/
def ofRequest (setup : Setup) : Request → Handler Unit
  | .load image base => loadImage (image.map fun byte => (byte.toNat : Int)) base
  | .loadNumbers numbers base => loadNumbers numbers base
  | .loadFilled value count base =>
      if 0 ≤ value ∧ value ≤ 0xFF then loadImage (List.replicate count.toNat value) base
      else throw .defect
  | .assemble source base =>
      match Assembly.assemble setup.table setup.config.operandOrder source with
      | .ok program => loadImage (program.code.map fun byte => (byte.toNat : Int)) base
      | .error _ => throw .defect
  | .writeMemory address value => writeCell address value
  | .writePort port value => writePort port value
  | .drivePort port value => writePort port value
  | .setRegister name value => setNamed name value
  | .setRegisters values => setAllNamed values
  | .setFlag position value => setFlag position value
  | .clearMemory => clearMemory
  | .setSlot slot value => setSlot slot value
  | .setPair name value =>
      match Pair.ofToken? name with
      | some named => setPair named value
      | none => throw .defect
  | .replaceStatus mask value => setStatus mask.toNat value
  | .pushWord value => push value
  | .pullWord => do
      let _ ← pull
  | .setPart part value => setPart part value
  | _ => return

end Handler

/-- The machine at power on. -/
def IntegerMachine.zeroed : IntegerMachine where
  registers := .zeroed
  memory := List.replicate 65536 0
  ports := List.replicate 256 0

namespace IntegerSession

def initial (config : Config) : IntegerSession where
  machine := .zeroed
  halted := true
  steps := 0
  breakpoints := ∅
  tracing := config.trace
  traceLimit := config.traceLimit
  trace := []

/-- The session as after power on; the switch of the trace stays. -/
def reset (session : IntegerSession) : IntegerSession where
  machine := .zeroed
  halted := true
  steps := 0
  breakpoints := ∅
  tracing := session.tracing
  traceLimit := session.traceLimit
  trace := []

/-- Does what a host asks for.  A run takes at most `patience` turns. -/
def perform (setup : Setup) (patience : Nat) (request : Request) (session : IntegerSession) :
    IntegerSession :=
  match request with
  | .reset => session.reset
  | .step => (session.step setup).1
  | .attempt => (session.attempt setup).1
  | .steps count => session.stepsFrom setup count
  | .run maxSteps polls => session.run setup patience maxSteps polls
  | .resume maxSteps polls => session.resume setup patience maxSteps polls
  | .addBreakpoint address =>
      { session with breakpoints := insert (address % 65536) session.breakpoints }
  | .removeBreakpoint address =>
      { session with breakpoints := session.breakpoints.erase (address % 65536) }
  | .clearBreakpoints => { session with breakpoints := ∅ }
  | .setTracing value => { session with tracing := value }
  | .clearTrace => { session with trace := [] }
  | .setHalted value => { session with halted := value }
  | other => { session with machine := ((Handler.ofRequest setup other).on session.machine).2 }

def performAll (setup : Setup) (patience : Nat) :
    List Request → IntegerSession → IntegerSession
  | [], session => session
  | request :: rest, session =>
      performAll setup patience rest (session.perform setup patience request)

end IntegerSession

/-! ## Assignments to registers -/

theorem Register.slot_lt (register : Register) : register.slot < 8 := by
  cases register <;> decide

theorem Register.slot_of_getElem? {index : Nat} {register : Register}
    (found : Register.all[index]? = some register) : register.slot = index := by
  have own : Register.all[register.slot]? = some register := by cases register <;> rfl
  exact (List.getElem?_inj register.slot_lt (by decide)).1 (own.trans found.symm)

/-- A slot below zero is counted from behind the last. -/
theorem Register.slot_of_ofSlot? {slot : Int} {register : Register}
    (found : Register.ofSlot? slot = some register) :
    (if slot < 0 then slot + 8 else slot) = register.slot := by
  rw [Register.ofSlot?] at found
  split at found
  · split at found
    · cases found
    · rw [Register.slot_of_getElem? found, if_pos (by assumption)]
      omega
  · rw [Register.slot_of_getElem? found, if_neg (by assumption)]
    omega

namespace Handler

variable {machine : Machine}

theorem on_setProgramCounter (value : Int) :
    (setProgramCounter value).on machine.integers = (.ok (), { machine with
      registers := { machine.registers with programCounter := wordOf value } }.integers) :=
  on_changeRegisters machine (machine.registers.setProgramCounter_integers value)

/-- What is left after a host has set registers, or was refused. -/
def afterSetting (machine : Machine) : Except Fault Registers → Except Exit Unit × IntegerMachine
  | .ok registers => (.ok (), { machine with registers }.integers)
  | .error _ => (.error .fault, machine.integers)

theorem on_setChecked (register : HostRegister) (value : Int) :
    (setChecked register value).on machine.integers =
      afterSetting machine (machine.registers.hostWrite register value) := by
  rw [setChecked.eq_def, Registers.hostWrite.eq_def]
  cases register with
  | byte named => exact on_setRegister machine named value
  | stackPointer =>
      by_cases word : 0 ≤ value ∧ value ≤ 0xFFFF
      · simp only [if_pos word]
        exact on_assignPair machine .stackPointer value
      · simp only [if_neg word]
        rfl
  | programCounter =>
      by_cases word : 0 ≤ value ∧ value ≤ 0xFFFF
      · simp only [if_pos word]
        exact on_setProgramCounter value
      · simp only [if_neg word]
        rfl

theorem on_setNamed (name : HostValue) (value : Int) :
    (setNamed name value).on machine.integers =
      afterSetting machine (HostRegister.ofName name >>= fun register =>
        machine.registers.hostWrite register value) := by
  rw [setNamed, HostRegister.ofName]
  cases HostRegister.ofName? name with
  | none => rfl
  | some register => exact on_setChecked register value

theorem leaves_setAllNamed (values : List (HostValue × Int)) :
    (setAllNamed values).Leaves machine
      { machine with registers := (machine.registers.setAll values).1 } := by
  induction values generalizing machine with
  | nil => rfl
  | cons entry rest inductionHypothesis =>
      obtain ⟨name, value⟩ := entry
      rw [Leaves, setAllNamed, on_bind, on_setNamed, Registers.setAll]
      cases HostRegister.ofName name with
      | error fault => rfl
      | ok register =>
          have asked : (Except.ok register >>= fun register =>
              machine.registers.hostWrite register value) =
              machine.registers.hostWrite register value := rfl
          rw [asked]
          cases written : machine.registers.hostWrite register value with
          | error fault =>
              simp only [written]
              rfl
          | ok registers =>
              simp only [written]
              exact @inductionHypothesis { machine with registers }

theorem on_setSlot {slot : Int} {register : Register} (found : Register.ofSlot? slot = some register)
    (value : Int) : (setSlot slot value).on machine.integers = (.ok (), { machine with
      registers := machine.registers.write register (byteOf value) }.integers) := by
  have counted := Register.slot_of_ofSlot? found
  have below := register.slot_lt
  rw [setSlot, counted, if_pos (by omega)]
  exact on_setRegister machine register value

theorem on_setSlot_outside {slot : Int} (missing : Register.ofSlot? slot = none) (value : Int) :
    (setSlot slot value).on machine.integers = (.error .defect, machine.integers) := by
  have outside := ofSlot?_eq_none_iff.1 missing
  rw [setSlot, if_neg (by split <;> omega)]
  rfl

/-! ## Images -/

/-- Numbers that are all bytes are the values of their bytes. -/
theorem map_toNat_byteOf {numbers : List Int}
    (areBytes : (numbers.all fun number => 0 ≤ number && number ≤ 0xFF) = true) :
    (numbers.map byteOf).map (fun byte => (byte.toNat : Int)) = numbers := by
  have own : ∀ number ∈ numbers, ((byteOf number).toNat : Int) = number := by
    intro number member
    have inside := List.all_eq_true.1 areBytes number member
    rw [Bool.and_eq_true, decide_eq_true_iff, decide_eq_true_iff] at inside
    rw [natCast_byteOf]
    omega
  rw [List.map_map]
  exact (List.map_congr_left own).trans (List.map_id numbers)

theorem on_clearMemory :
    clearMemory.on machine.integers = (.ok (), { machine with memory := .blank }.integers) := by
  apply on_modify
  rw [Machine.integers, Machine.integers, Memory.blank, Bank.filled_integers]
  rfl

theorem on_setFlag {position : Int} {bit : Fin 8} (checked : statusPosition position = .ok bit)
    (value : Bool) : (setFlag position value).on machine.integers = (.ok (), { machine with
      registers := machine.registers.setStatusBit bit value }.integers) := by
  rw [statusPosition] at checked
  split at checked
  · rename_i inside
    cases checked
    have assigned := machine.registers.setStatusBit_integers ⟨position.toNat, by omega⟩ value
    rw [setFlag, if_pos inside]
    exact on_changeRegisters machine assigned
  · cases checked

theorem on_setFlag_outside {position : Int} {fault : Fault}
    (checked : statusPosition position = .error fault) (value : Bool) :
    (setFlag position value).on machine.integers = (.error .fault, machine.integers) := by
  rw [statusPosition] at checked
  split at checked
  · cases checked
  · rename_i outside
    rw [setFlag, if_neg outside]
    rfl

theorem on_setPart (part : FilePart) (value : Int) :
    (setPart part value).on machine.integers = (.ok (), { machine with
      registers := machine.registers.writePart part value }.integers) := by
  cases part with
  | byte named => exact on_setRegister machine named value
  | pair named => exact on_assignPair machine named value
  | programCounter => exact on_setProgramCounter value

/-! ## Requests to the machine -/

section Requests

variable {setup : Setup} {session : Session} {Value : Type}

theorem leaves_answer (result : Except Fault Value) (reply : Value → Reply) :
    (return : Handler Unit).Leaves session.machine (session.answer result reply).1.machine := by
  cases result <;> rfl

theorem leaves_change {handler : Handler Unit} {result : Except Fault Value}
    {update : Value → Session}
    (changes : ∀ value, result = .ok value → handler.Leaves session.machine (update value).machine)
    (refuses : ∀ fault, result = .error fault → handler.Leaves session.machine session.machine) :
    handler.Leaves session.machine (session.change result update).1.machine := by
  cases found : result with
  | ok value => exact changes value found
  | error fault => exact refuses fault found

theorem leaves_load (image : List UInt8) (base : Int) (reply : Reply) :
    (loadImage (image.map fun byte => (byte.toNat : Int)) base).Leaves session.machine
      (session.loadImage image base reply).1.machine := by
  rw [Session.loadImage]
  cases loaded : session.machine.memory.load image base with
  | ok memory => exact leaves_loadImage loaded
  | error fault => exact leaves_loadImage_refused loaded

theorem leaves_writeMemory (address value : Int) :
    (writeCell address value).Leaves session.machine (session.change
      (session.machine.memory.write? address value) session.setMemory).1.machine := by
  by_cases inside : 0 ≤ address ∧ address < 65536
  · obtain ⟨cell, rfl⟩ := exists_word inside
    rw [Memory.write?, Memory.address_toNat]
    exact leaves_of_on (on_writeCell session.machine cell value)
  · rw [Memory.write?, Memory.address_of_outside inside, Leaves, writeCell, on_bind,
      on_checkCell_outside inside]
    rfl

/-- Whatever else becomes of the ports. -/
theorem leaves_writePort (number : Int) {value : Int} {change : UInt8 → Ports}
    (written : ∀ port, (change port).values =
      session.machine.ports.values.set port.toNat (byteOf value)) :
    (writePort number value).Leaves session.machine (session.change (Ports.port number)
      fun port => session.setPorts (change port)).1.machine := by
  by_cases inside : 0 ≤ number ∧ number < 256
  · obtain ⟨port, rfl⟩ := exists_byte inside
    rw [Ports.port_toNat]
    exact leaves_of_on (on_writePort session.machine (written port))
  · rw [Ports.port_of_outside inside, Leaves, writePort, on_bind, on_checkPort_outside inside]
    rfl

theorem leaves_ofRequest (patience : Nat) {request : Request} (access : request.isAccess = true) :
    (ofRequest setup request).Leaves session.machine
      (session.perform setup patience request).1.machine := by
  -- a request that is refused breaks off the handler before it has changed anything, apart from a
  -- list of registers, of which those before the refused one stay set
  cases request with
  | load image base => exact leaves_load image base .nothing
  | loadNumbers numbers base =>
      rw [ofRequest, loadNumbers, Session.perform, bytesOf?]
      split
      · rename_i areBytes
        have loads := @leaves_load session (numbers.map byteOf) base .nothing
        rw [map_toNat_byteOf areBytes] at loads
        exact loads
      · rfl
  | loadFilled value count base =>
      rw [ofRequest, Session.perform]
      by_cases byte : 0 ≤ value ∧ value ≤ 0xFF
      · have numbers : List.replicate count.toNat value =
            (List.replicate count.toNat (byteOf value)).map fun byte => (byte.toNat : Int) := by
          rw [List.map_replicate, natCast_byteOf, Int.emod_eq_of_lt byte.1 (by omega)]
        simp only [if_pos byte, numbers, Memory.fill_eq_load]
        exact leaves_change (fun _ => leaves_loadImage) fun _ => leaves_loadImage_refused
      · simp only [if_neg byte]
        rfl
  | assemble source base =>
      rw [ofRequest, Session.perform]
      cases Assembly.assemble setup.table setup.config.operandOrder source with
      | ok program => exact leaves_load program.code base (.bytes program.code)
      | error failure => rfl
  | readMemory address => exact leaves_answer _ _
  | readPort number => exact leaves_answer _ _
  | getRegister name => exact leaves_answer _ _
  | getFlag position => exact leaves_answer _ _
  | hexDump start length => exact leaves_answer _ _
  | snapshot start length => exact leaves_answer _ _
  | writeMemory address value => exact leaves_writeMemory address value
  | writePort number value => exact leaves_writePort number fun _ => rfl
  | drivePort number value => exact leaves_writePort number fun _ => rfl
  | observePort number observer => exact leaves_change (fun _ _ => rfl) fun _ _ => rfl
  | setRegister name value =>
      refine leaves_change ?_ ?_
      · intro registers set
        apply leaves_of_on
        rw [ofRequest, on_setNamed, set]
        rfl
      · intro fault refused
        apply leaves_of_on
        rw [ofRequest, on_setNamed, refused]
        rfl
  | setRegisters values =>
      rw [ofRequest, Session.perform, Session.setAll_eq]
      have left := @leaves_setAllNamed session.machine values
      rcases reached : session.machine.registers.setAll values with ⟨registers, fault | done⟩
      all_goals
        rw [reached] at left
        exact left
  | setFlag position value =>
      refine leaves_change ?_ ?_
      · exact fun bit checked => leaves_of_on (on_setFlag checked value)
      · exact fun fault refused => leaves_of_on (on_setFlag_outside refused value)
  | setSlot slot value =>
      rw [ofRequest, Session.perform]
      cases found : Register.ofSlot? slot with
      | some register => exact leaves_of_on (on_setSlot found value)
      | none => exact leaves_of_on (on_setSlot_outside found value)
  | getSlot slot =>
      rw [Session.perform]
      cases Register.ofSlot? slot <;> rfl
  | getPair name =>
      rw [Session.perform]
      cases Pair.ofToken? name <;> rfl
  | setPair name value =>
      rw [ofRequest, Session.perform]
      cases Pair.ofToken? name with
      | some pair => exact leaves_of_on (on_setPair session.machine pair value)
      | none => rfl
  | replaceStatus mask value => exact leaves_of_on (on_setStatus session.machine mask value)
  | pushWord value => exact leaves_of_on (on_push session.machine value)
  | pullWord =>
      apply @leaves_of_on _ _ _ (.ok ())
      rw [ofRequest, on_bind, on_pull]
      rfl
  | setPart part value => exact leaves_of_on (on_setPart part value)
  | clearMemory => exact leaves_of_on on_clearMemory
  | listBreakpoints => rfl
  | setHalted value => rfl
  | getState => rfl
  | memorySize => rfl
  | getFlags => rfl
  | getStatusFlag flag => rfl
  | getPart part => rfl
  | _ => cases access

end Requests

end Handler

/-! ## Requests to the session -/

namespace Session

variable {setup : Setup} {patience : Nat} {session : Session}

theorem zeroed_integers {machine : Machine} (registers : machine.registers = .zeroed)
    (memory : machine.memory = .blank) (ports : machine.ports.values = .filled 0 8) :
    machine.integers = .zeroed := by
  rw [Machine.integers, registers, memory, ports, Memory.blank, Bank.filled_integers,
    Bank.filled_integers, Registers.zeroed_integers]
  rfl

theorem initial_integers (config : Config) :
    (initial config).integers = IntegerSession.initial config := by
  rw [integers, @zeroed_integers (initial config).machine rfl rfl rfl]
  rfl

theorem reset_integers (session : Session) : session.integers.reset = session.reset.integers := by
  rw [integers, integers, @zeroed_integers session.reset.machine rfl rfl rfl]
  rfl

section Addresses

variable (address : Int) {addresses : List UInt16}

/-- The addresses of breakpoints as a set of integers. -/
theorem insert_integers :
    insert (address % 65536) (addresses.map fun address => (address.toNat : Int)).toFinset =
      ((insertAddress (wordOf address) addresses).map fun address =>
        (address.toNat : Int)).toFinset := by
  ext number
  simp only [Finset.mem_insert, List.mem_toFinset, List.mem_map, mem_insertAddress, or_and_right,
    exists_or, exists_eq_left, natCast_wordOf]
  rw [eq_comm]

theorem erase_integers (distinct : addresses.Nodup) :
    (addresses.map fun address => (address.toNat : Int)).toFinset.erase (address % 65536) =
      ((addresses.erase (wordOf address)).map fun address => (address.toNat : Int)).toFinset := by
  ext number
  simp only [Finset.mem_erase, List.mem_toFinset, List.mem_map, distinct.mem_erase_iff,
    ← natCast_wordOf]
  constructor
  · rintro ⟨other, found, member, rfl⟩
    exact ⟨found, ⟨fun same => other (by rw [same]), member⟩, rfl⟩
  · rintro ⟨found, ⟨other, member⟩, rfl⟩
    exact ⟨fun same => other (UInt16.toNat_inj.1 (Int.ofNat.inj same)), found, member, rfl⟩

end Addresses

theorem perform_integers_of_isExecution {request : Request} (execution : request.isExecution = true) :
    session.integers.perform setup patience request =
      (session.perform setup patience request).1.integers := by
  cases request with
  | step =>
      rw [left_step, IntegerSession.perform, step_integers]
  | attempt =>
      rw [left_attempt, IntegerSession.perform, attempt_integers]
  | steps count =>
      rw [left_steps]
      exact stepsFrom_integers [] count session
  | run maxSteps polls =>
      rw [left_run]
      exact run_integers patience maxSteps polls session
  | resume maxSteps polls =>
      rw [left_resume]
      exact resume_integers patience maxSteps polls session
  | _ => cases execution

theorem perform_machine {request : Request} (access : request.isAccess = true)
    (noMark : ∀ halted, request ≠ .setHalted halted) (session : IntegerSession) :
    session.perform setup patience request =
      { session with machine := ((Handler.ofRequest setup request).on session.machine).2 } := by
  cases request with
  | setHalted halted => exact absurd rfl (noMark halted)
  | reset => cases access
  | step => cases access
  | attempt => cases access
  | steps count => cases access
  | run maxSteps polls => cases access
  | resume maxSteps polls => cases access
  | addBreakpoint address => cases access
  | removeBreakpoint address => cases access
  | clearBreakpoints => cases access
  | setTracing value => cases access
  | clearTrace => cases access
  | _ => rfl

theorem perform_integers_of_isAccess {request : Request} (access : request.isAccess = true) :
    session.integers.perform setup patience request =
      (session.perform setup patience request).1.integers := by
  by_cases marks : ∃ halted, request = .setHalted halted
  · obtain ⟨halted, rfl⟩ := marks
    rfl
  · have noMark : ∀ halted, request ≠ .setHalted halted := fun halted same => marks ⟨halted, same⟩
    obtain ⟨machine, left⟩ := exists_machine_of_isAccess setup patience access noMark session
    have done := @Handler.leaves_ofRequest setup session patience request access
    rw [left] at done ⊢
    rw [perform_machine access noMark]
    exact congrArg (fun machine => { session.integers with machine }) done

theorem perform_integers (ascending : session.breakpoints.Pairwise (· < ·)) (request : Request) :
    session.integers.perform setup patience request =
      (session.perform setup patience request).1.integers := by
  cases request using Request.byKind with
  | execution request execution => exact perform_integers_of_isExecution execution
  | access request access => exact perform_integers_of_isAccess access
  | reset => exact reset_integers session
  | addBreakpoint address =>
      rw [IntegerSession.perform, integers, insert_integers]
      rfl
  | removeBreakpoint address =>
      have distinct := ascending.imp UInt16.ne_of_lt
      rw [IntegerSession.perform, integers, erase_integers address distinct]
      rfl
  | clearBreakpoints => rfl
  | setTracing value => rfl
  | getTrace => rfl
  | clearTrace => rfl

theorem performAll_integers (requests : List Request) {config : Config}
    (kept : session.IsKept config) :
    session.integers.performAll setup patience requests =
      (session.performAll setup patience requests).1.integers := by
  induction requests generalizing session with
  | nil => rfl
  | cons request rest inductionHypothesis =>
      rw [IntegerSession.performAll, perform_integers kept.ascending]
      exact inductionHypothesis (isKept_perform patience request kept)

end Session

end Intel8085
