import Intel8085.Proofs.Integers.Execution
import Intel8085.Proofs.Session.Faults
import Intel8085.Session.Request
import Mathlib.Data.Finset.Dedup

/-!
# Runs on integers

A session over a machine that holds integers.  Its breakpoints are a set of integers, and its trace
is a list from the front of which lines are dropped when there are more than the limit.  An
instruction is fetched by the same checked reads as any other cell, and the address of the next one
is cut to a word when it is assigned to the program counter.  The last error is left out: it is no
integer, and nothing that a session does depends on it.

What a step or a run makes of a session, it makes of the integers in it as well
(`attempt_integers`, `step_integers`, `turns_integers`, `resume_integers`).
-/

set_option autoImplicit false

namespace Intel8085

structure IntegerTraceLine where
  before : IntegerRegisters
  mnemonic : String
  operands : List String
  value : Int

structure IntegerSession where
  machine : IntegerMachine
  halted : Bool
  steps : Nat
  breakpoints : Finset Int
  tracing : Bool
  traceLimit : Nat
  trace : List IntegerTraceLine

/-- The word of two bytes of the instruction stream. -/
def ByteOrder.join (order : ByteOrder) (first second : Int) : Int :=
  match order with
  | .big => first * 256 + second
  | .little => second * 256 + first

namespace Handler

def programCounter : Handler Int :=
  return (← get).registers.programCounter

/-- The value of so many immediate bytes behind an address. -/
def immediate (order : ByteOrder) (address : Int) (width : Nat) : Handler (Option Int) := do
  match width with
  | 1 => return some (← readCell (address + 1))
  | 2 => do
      let first ← readCell (address + 1)
      let second ← readCell (address + 2)
      return some (order.join first second)
  | _ => return none

/-- The instruction at the program counter. -/
def fetch (setup : Setup) : Handler (Form × Option Int) := do
  let address ← programCounter
  match setup.table.decode (← readCell address) with
  | .error _ => throw .fault
  | .ok form => return (form, ← immediate setup.config.operandOrder address form.width)

end Handler

namespace IntegerSession

def goTo (session : IntegerSession) (address : Int) : IntegerSession :=
  { session with
    machine := { session.machine with
      registers := session.machine.registers.setProgramCounter address } }

def record (session : IntegerSession) (line : IntegerTraceLine) : IntegerSession :=
  { session with
    steps := session.steps + 1
    trace := if session.tracing then Recent.lastItems session.traceLimit (session.trace ++ [line])
      else session.trace }

def halt (session : IntegerSession) : IntegerSession :=
  { session with halted := true }

/-- The session after a handler, and whether it can go on. -/
def finish (session : IntegerSession) (line : IntegerTraceLine)
    (effect : Except Exit (Option Int) × IntegerMachine) : IntegerSession × Except Exit Bool :=
  let after := { session with machine := effect.2 }
  match effect.1 with
  | .error .fault => (after, .error .fault)
  | .error .defect => (after, .error .defect)
  | .error .halt => ((after.record line).halt, .ok false)
  | .ok none => (after.record line, .error .defect)
  | .ok (some next) =>
      if 0xFFFF < next then ((after.record line).halt, .ok false)
      else ((after.record line).goTo next, .ok true)

def context (setup : Setup) (session : IntegerSession) (form : Form) (immediate : Option Int) :
    IntegerContext where
  modelsIoAndBcd := setup.config.modelsIoAndBcd
  following := session.machine.registers.programCounter + form.length
  immediate := immediate

def traceLine (session : IntegerSession) (form : Form) (immediate : Option Int) :
    IntegerTraceLine where
  before := session.machine.registers
  mnemonic := form.mnemonic
  operands := form.operands
  value := immediate.getD 0

def carryOut (setup : Setup) (session : IntegerSession) (form : Form) (immediate : Option Int) :
    IntegerSession × Except Exit Bool :=
  if session.tracing && 2 < form.width then (session, .error .defect)
  else
    session.finish (session.traceLine form immediate)
      ((Handler.ofOperation form.operation (session.context setup form immediate)).on
        session.machine)

/-- The session after the instruction at the program counter, and whether it can go on. -/
def attempt (setup : Setup) (session : IntegerSession) : IntegerSession × Except Exit Bool :=
  match ((Handler.fetch setup).on session.machine).1 with
  | .error exit => (session, .error exit)
  | .ok (form, immediate) => session.carryOut setup form immediate

/-- A fault halts the session; a defect is left to the caller. -/
def settle : IntegerSession × Except Exit Bool → IntegerSession × Except Exit Bool
  | (after, .error .fault) => (after.halt, .ok false)
  | other => other

def step (setup : Setup) (session : IntegerSession) : IntegerSession × Except Exit Bool :=
  settle (session.attempt setup)

def stopsBefore (session : IntegerSession) (bounds : Bounds) (executed : Nat) : Bool :=
  bounds.isCancelled executed || bounds.isSpent executed ||
    (executed ≠ 0 && decide (session.machine.registers.programCounter ∈ session.breakpoints))

/-- The turns of a run after `executed` steps, at most `patience` of them. -/
def turns (setup : Setup) (bounds : Bounds) :
    (patience executed : Nat) → IntegerSession → IntegerSession
  | 0, _, session => session
  | patience + 1, executed, session =>
      if session.stopsBefore bounds executed then session.halt
      else
        match session.step setup with
        | (after, .error _) => after
        | (after, .ok false) => after.halt
        | (after, .ok true) => turns setup bounds patience (executed + 1) after

def resume (setup : Setup) (patience : Nat) (maxSteps polls : Option Int)
    (session : IntegerSession) : IntegerSession :=
  turns setup (Session.boundsOf setup.config maxSteps polls) patience 0
    { session with halted := false }

def run (setup : Setup) (patience : Nat) (maxSteps polls : Option Int)
    (session : IntegerSession) : IntegerSession :=
  (session.goTo 0).resume setup patience maxSteps polls

/-- Up to `count` steps, ending after the first that cannot go on. -/
def stepsFrom (setup : Setup) : (count : Nat) → IntegerSession → IntegerSession
  | 0, session => session
  | count + 1, session =>
      match session.step setup with
      | (after, .ok true) => stepsFrom setup count after
      | (after, _) => after

end IntegerSession

/-! ## The values of sessions -/

def TraceLine.integers (line : TraceLine) : IntegerTraceLine where
  before := line.before.integers
  mnemonic := line.mnemonic
  operands := line.operands
  value := line.value

/-- What a session holds, as integers. -/
def Session.integers (session : Session) : IntegerSession where
  machine := session.machine.integers
  halted := session.halted
  steps := session.steps
  breakpoints := (session.breakpoints.map fun address => (address.toNat : Int)).toFinset
  tracing := session.tracing
  traceLimit := session.trace.limit
  trace := session.trace.toList.map TraceLine.integers

/-- How an attempt comes out, as far as a machine that holds integers can tell. -/
def Outcome.integers : Outcome → Except Exit Bool
  | .completed stop => .ok stop.isNone
  | .fault _ => .error .fault
  | .defect _ => .error .defect

namespace Handler

variable {Value Result : Type} {machine : Machine}

/-- The result that belongs to what a machine makes of it, where a refusal is a fault. -/
def resultOf (value : Result → Value) : Except Fault Result → Except Exit Value
  | .ok result => .ok (value result)
  | .error _ => .error .fault

/-- A refusal ends both, and a result is carried on alike. -/
theorem on_bind_resultOf {Later Last : Type} {reading : Handler Value} {result : Except Fault Result}
    {value : Result → Value} {work : Value → Handler Later} {next : Result → Except Fault Last}
    {later : Last → Later}
    (reads : reading.on machine.integers = (resultOf value result, machine.integers))
    (goesOn : ∀ found, (work (value found)).on machine.integers =
      (resultOf later (next found), machine.integers)) :
    (reading >>= work).on machine.integers =
      (resultOf later (result >>= next), machine.integers) := by
  rw [on_bind, reads]
  cases result with
  | error fault => rfl
  | ok found => exact goesOn found

theorem on_readCell_number (number : Int) :
    (readCell number).on machine.integers =
      (resultOf (fun byte => (byte.toNat : Int)) (machine.memory.read? number),
        machine.integers) := by
  by_cases inside : 0 ≤ number ∧ number < 65536
  · obtain ⟨address, rfl⟩ := exists_word inside
    rw [on_readCell, Memory.read?, Memory.address_toNat]
    rfl
  · rw [readCell, on_bind, on_checkCell_outside inside, Memory.read?,
      Memory.address_of_outside inside]
    rfl

theorem join_toNat (order : ByteOrder) (first second : UInt8) :
    order.join first.toNat second.toNat = (order.joinWord [first, second]).toNat := by
  cases order <;> simp only [ByteOrder.join, ByteOrder.joinWord, toNat_joinBytes] <;> omega

/-- The immediate of an instruction as an integer. -/
def immediateValue (immediate : Option UInt16) : Option Int :=
  immediate.map fun value => (value.toNat : Int)

theorem on_immediate (order : ByteOrder) (address : UInt16) (width : Nat) :
    (immediate order address.toNat width).on machine.integers =
      (resultOf immediateValue (machine.memory.immediate order address width),
        machine.integers) := by
  match width with
  | 0 => rfl
  | 1 =>
      apply on_bind_resultOf (on_readCell_number _)
      intro byte
      have alone : (joinBytes 0 byte).toNat = byte.toNat := by
        rw [toNat_joinBytes, UInt8.toNat_zero, Nat.zero_mul, Nat.zero_add]
      rw [on_pure, ← alone]
      rfl
  | 2 =>
      apply on_bind_resultOf (on_readCell_number _)
      intro first
      apply on_bind_resultOf (on_readCell_number _)
      intro second
      simp only [on_pure, join_toNat]
      rfl
  | _ + 3 => rfl

theorem on_programCounter :
    programCounter.on machine.integers =
      (.ok machine.registers.programCounter.toNat, machine.integers) :=
  rfl

/-- A fetched instruction, with its immediate as an integer. -/
def instructionOf (fetched : Fetched) : Form × Option Int :=
  (fetched.form, immediateValue fetched.immediate)

theorem on_fetch (setup : Setup) :
    (fetch setup).on machine.integers =
      (resultOf instructionOf (machine.memory.fetch setup machine.registers.programCounter),
        machine.integers) := by
  have byte := byte_inside (machine.memory.read machine.registers.programCounter)
  rw [fetch, on_bind, on_programCounter, continueOn_ok, on_bind, on_readCell, continueOn_ok,
    OpcodeTable.decode, if_pos (by omega), byteOf_toNat, Memory.fetch]
  cases setup.table.form? (machine.memory.read machine.registers.programCounter) with
  | none => rfl
  | some form =>
      apply on_bind_resultOf (on_immediate _ _ _)
      intro found
      rfl

end Handler

namespace Session

variable {setup : Setup}

theorem goTo_integers (session : Session) (address : Int) :
    session.integers.goTo address = (session.goTo (wordOf address)).integers := by
  have assigned := session.machine.registers.setProgramCounter_integers address
  simp only [IntegerSession.goTo, integers, Machine.integers, assigned]
  rfl

theorem record_integers (session : Session) (line : TraceLine) :
    session.integers.record line.integers = (session.record line).integers := by
  cases traced : session.tracing with
  | false => simp only [IntegerSession.record, integers, record, traced]; rfl
  | true =>
      simp only [IntegerSession.record, integers, record, traced, if_true, Recent.toList_push,
        Recent.limit_push, Recent.lastItems_map, List.map_append]
      rfl

theorem finish_integers (session : Session) (line : TraceLine) (effect : Effect) :
    session.integers.finish line.integers effect.integers =
      ((session.finish line effect).1.integers, (session.finish line effect).2.integers) := by
  obtain ⟨machine, ending⟩ := effect
  have recorded := record_integers { session with machine } line
  cases ending with
  | fault fault => rfl
  | defect defect => rfl
  | halt => exact congrArg (fun after => (IntegerSession.halt after, Except.ok false)) recorded
  | proceed next =>
      cases next with
      | none => exact congrArg (fun after => (after, Except.error Exit.defect)) recorded
      | some next =>
          rw [IntegerSession.finish, finish]
          simp only [Effect.integers, Ending.integers]
          by_cases beyond : 0xFFFF < next
          · rw [if_pos beyond, if_pos beyond]
            exact congrArg (fun after => (IntegerSession.halt after, Except.ok false)) recorded
          · rw [if_neg beyond, if_neg beyond, ← goTo_integers]
            exact congrArg (fun after => (IntegerSession.goTo after next, Except.ok true)) recorded

theorem carryOut_integers (setup : Setup) (session : Session) (fetched : Fetched) :
    session.integers.carryOut setup fetched.form (Handler.immediateValue fetched.immediate) =
      ((session.carryOut setup fetched).1.integers,
        (session.carryOut setup fetched).2.integers) := by
  have line : session.integers.traceLine fetched.form (Handler.immediateValue fetched.immediate) =
      (session.traceLine fetched).integers := by
    simp only [IntegerSession.traceLine, TraceLine.integers, traceLine, Handler.immediateValue]
    cases fetched.immediate <;> rfl
  have done : (Handler.ofOperation fetched.form.operation (session.integers.context setup
      fetched.form (Handler.immediateValue fetched.immediate))).on session.integers.machine =
      (fetched.form.operation.execute (session.context setup fetched) session.machine).integers :=
    Handler.on_ofOperation fetched.form.operation (session.context setup fetched) session.machine
  rw [IntegerSession.carryOut, carryOut, line, done, finish_integers]
  by_cases tooWide : (session.tracing && decide (2 < fetched.form.width)) = true
  · rw [if_pos tooWide]
    exact if_pos tooWide
  · rw [if_neg tooWide]
    exact if_neg tooWide

theorem attempt_integers (setup : Setup) (session : Session) :
    session.integers.attempt setup =
      ((session.attempt setup).1.integers, (session.attempt setup).2.integers) := by
  have fetching : (Handler.fetch setup).on session.integers.machine =
      (Handler.resultOf Handler.instructionOf
        (session.machine.memory.fetch setup session.programCounter), session.integers.machine) :=
    Handler.on_fetch setup
  rw [IntegerSession.attempt, fetching, attempt]
  cases session.machine.memory.fetch setup session.programCounter with
  | error fault => rfl
  | ok fetched => exact carryOut_integers setup session fetched

/-- Whether a run goes on after a step. -/
def stepResult : Except Defect (Option StopReason) → Except Exit Bool
  | .ok stop => .ok stop.isNone
  | .error _ => .error .defect

theorem step_integers (setup : Setup) (session : Session) :
    session.integers.step setup =
      ((session.step setup).1.integers, stepResult (session.step setup).2) := by
  rw [IntegerSession.step, attempt_integers, step]
  rcases session.attempt setup with ⟨after, outcome⟩
  cases outcome <;> rfl

theorem mem_breakpoints (session : Session) (address : UInt16) :
    (address.toNat : Int) ∈ session.integers.breakpoints ↔ address ∈ session.breakpoints := by
  rw [integers, List.mem_toFinset, List.mem_map]
  constructor
  · rintro ⟨other, member, same⟩
    rw [← UInt16.toNat_inj.1 (Int.ofNat.inj same)]
    exact member
  · exact fun member => ⟨address, member, rfl⟩

theorem stopsBefore_integers (session : Session) (bounds : Bounds) (executed : Nat) :
    session.integers.stopsBefore bounds executed =
      (session.stopBefore bounds executed).isSome := by
  have atBreakpoint : decide (session.integers.machine.registers.programCounter ∈
      session.integers.breakpoints) = session.atBreakpoint := by
    rw [atBreakpoint, Bool.eq_iff_iff, decide_eq_true_iff, List.contains_iff_mem]
    exact mem_breakpoints session session.programCounter
  rw [IntegerSession.stopsBefore, atBreakpoint, stopBefore]
  cases bounds.isCancelled executed with
  | true => rfl
  | false =>
      cases bounds.isSpent executed with
      | true => rfl
      | false =>
          simp only [Bool.false_or, Bool.false_eq_true, if_false]
          cases decide (executed ≠ 0) && session.atBreakpoint <;> rfl

/-- A run that stopped has halted the session. -/
def settled : Session × RunOutcome → Session
  | (after, .stopped _) => after.halt
  | (after, _) => after

theorem turns_integers (bounds : Bounds) (patience executed : Nat) (session : Session) :
    session.integers.turns setup bounds patience executed =
      (settled (session.turns setup bounds patience executed)).integers := by
  induction patience generalizing executed session with
  | zero => rfl
  | succ patience inductionHypothesis =>
      rw [IntegerSession.turns, stopsBefore_integers, turns]
      cases session.stopBefore bounds executed with
      | some reason => rfl
      | none =>
          rw [step_integers]
          rcases session.step setup with ⟨after, defect | stop⟩
          · rfl
          · cases stop with
            | some reason => rfl
            | none => exact inductionHypothesis (executed + 1) after

theorem resume_integers (patience : Nat) (maxSteps polls : Option Int) (session : Session) :
    session.integers.resume setup patience maxSteps polls =
      (session.resume setup patience maxSteps polls).1.integers := by
  have turned := @turns_integers setup (boundsOf setup.config maxSteps polls) patience 0
    session.start
  have started : session.start.integers = { session.integers with halted := false } := rfl
  rw [started] at turned
  rw [IntegerSession.resume, turned, resume]
  rcases turns setup (boundsOf setup.config maxSteps polls) patience 0 session.start
    with ⟨after, outcome⟩
  cases outcome <;> rfl

theorem run_integers (patience : Nat) (maxSteps polls : Option Int) (session : Session) :
    session.integers.run setup patience maxSteps polls =
      (session.run setup patience maxSteps polls).1.integers := by
  rw [IntegerSession.run, goTo_integers, resume_integers]
  rfl

theorem stepsFrom_integers (found : List (Option StopReason × Registers)) (count : Nat)
    (session : Session) :
    session.integers.stepsFrom setup count = (session.stepsFrom setup found count).1.integers := by
  induction count generalizing found session with
  | zero => rfl
  | succ count inductionHypothesis =>
      rw [IntegerSession.stepsFrom, stepsFrom, step_integers]
      rcases session.step setup with ⟨after, defect | stop⟩
      · rfl
      · cases stop with
        | some reason => rfl
        | none => exact inductionHypothesis _ after

end Session

end Intel8085
