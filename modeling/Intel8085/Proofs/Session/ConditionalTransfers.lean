import Intel8085.Proofs.InstructionSet.ConditionalTransfers
import Intel8085.Proofs.Machine.Stack
import Intel8085.Proofs.Session.Locality

/-!
# Steps at a transfer on a condition

With the standard table, a transfer whose condition holds does what the transfer without a condition
does in its place, and one whose condition fails only goes on behind the instruction
(`step_followsCondition`).  The opcode that stands in the place makes no other difference: memory
is the same in every cell but that one.
-/

set_option autoImplicit false

namespace Intel8085

/-! ## Machines that differ in one cell -/

/-- The machines are the same in all but what stands in one cell of memory. -/
structure Machine.AgreesBut (address : UInt16) (first second : Machine) : Prop where
  registers : second.registers = first.registers
  ports : second.ports = first.ports
  memory : ∀ other, other ≠ address → second.memory.read other = first.memory.read other

namespace Machine.AgreesBut

theorem of_poke (machine : Machine) (address : UInt16) (byte : UInt8) :
    machine.AgreesBut address (machine.poke address byte) :=
  ⟨rfl, rfl, fun _ other => machine.read_poke byte other.symm⟩

variable {address : UInt16} {first second : Machine} (agrees : first.AgreesBut address second)
include agrees

/-- What is written is the same in both. -/
theorem write (written : UInt16) (byte : UInt8) :
    Machine.AgreesBut address { first with memory := first.memory.write written byte }
      { second with memory := second.memory.write written byte } := by
  refine ⟨agrees.registers, agrees.ports, ?_⟩
  intro other apart
  by_cases here : other = written
  · subst here
    exact (Memory.read_write_same _ _ _).trans (Memory.read_write_same _ _ _).symm
  · have kept := agrees.memory other apart
    rw [← Memory.read_write_other second.memory byte here,
      ← Memory.read_write_other first.memory byte here] at kept
    exact kept

theorem setStackPointer (stackPointer : UInt16) :
    (first.setStackPointer stackPointer).AgreesBut address
      (second.setStackPointer stackPointer) := by
  refine ⟨?_, agrees.ports, agrees.memory⟩
  rw [Machine.setStackPointer, agrees.registers]
  rfl

theorem push (word : UInt16) : (first.push word).AgreesBut address (second.push word) := by
  have moved := agrees.setStackPointer (first.registers.stackPointer - 2)
  rw [Machine.push, Machine.push, agrees.registers]
  exact (moved.write _ (lowByte word)).write _ (highByte word)

theorem goTo (programCounter : UInt16) :
    Machine.AgreesBut address
      { first with registers := { first.registers with programCounter } }
      { second with registers := { second.registers with programCounter } } := by
  refine ⟨?_, agrees.ports, agrees.memory⟩
  rw [agrees.registers]

theorem pull : first.pull.AgreesBut address second.pull := by
  rw [Machine.pull, Machine.pull, agrees.registers]
  exact agrees.setStackPointer _

/-- The word on top is the same if the cell is none of its two. -/
theorem top (notLower : address ≠ first.registers.stackPointer)
    (notUpper : address ≠ first.registers.stackPointer + 1) : second.top = first.top :=
  Machine.top_congr agrees.registers (agrees.memory _ notLower.symm)
    (agrees.memory _ notUpper.symm)

end Machine.AgreesBut

/-! ## Operations -/

namespace TransferKind

/-- Where the transfer goes, with `word` behind its opcode. -/
def target (kind : TransferKind) (word : UInt16) (machine : Machine) : UInt16 :=
  match kind with
  | .ret => machine.top
  | .jump => word
  | .call => word

/-- The machine once the transfer has used the stack, with `following` behind its instruction. -/
def onStack (kind : TransferKind) (following : Nat) (machine : Machine) : Machine :=
  match kind with
  | .ret => machine.pull
  | .jump => machine
  | .call => machine.push (UInt16.ofNat following)

/-- Only a return reads what the opcode may be part of. -/
def Clear (kind : TransferKind) (address : UInt16) (machine : Machine) : Prop :=
  kind = .ret →
    address ≠ machine.registers.stackPointer ∧ address ≠ machine.registers.stackPointer + 1

instance (kind : TransferKind) (address : UInt16) (machine : Machine) :
    Decidable (kind.Clear address machine) :=
  inferInstanceAs (Decidable (_ → _))

variable (kind : TransferKind)

theorem execute_unconditional {context : Context} {word : UInt16}
    (given : kind ≠ .ret → context.immediate = some word) (machine : Machine) :
    (kind.operation none).execute context machine =
      { machine := kind.onStack context.following machine
        ending := .proceed (some (kind.target word machine).toNat) } := by
  cases kind with
  | ret => rfl
  | jump =>
      have immediate := given (by decide)
      simp [operation, Operation.execute, Context.onCondition, Context.transfer, immediate, onStack,
        target]
  | call =>
      have immediate := given (by decide)
      simp [operation, Operation.execute, Context.onCondition, Context.transfer, immediate, onStack,
        target]

theorem execute_of_holds {condition : Condition} (context : Context) {machine : Machine}
    (holds : condition.holdsIn machine.registers.status = true) :
    (kind.operation (some condition)).execute context machine =
      (kind.operation none).execute context machine := by
  cases kind <;> simp [operation, Operation.execute, Context.onCondition, holds]

theorem execute_of_fails {condition : Condition} (context : Context) {machine : Machine}
    (fails : ¬ condition.holdsIn machine.registers.status = true) :
    (kind.operation (some condition)).execute context machine = context.proceed machine := by
  cases kind <;> simp [operation, Operation.execute, Context.onCondition, fails]

variable {address : UInt16} {first second : Machine} (agrees : first.AgreesBut address second)
include agrees

theorem agreesBut_onStack (following : Nat) :
    (kind.onStack following first).AgreesBut address (kind.onStack following second) := by
  cases kind with
  | ret => exact agrees.pull
  | jump => exact agrees
  | call => exact agrees.push _

theorem target_eq_of_agreesBut (clear : kind.Clear address first) (word : UInt16) :
    kind.target word second = kind.target word first := by
  cases kind with
  | ret => exact agrees.top (clear rfl).1 (clear rfl).2
  | jump => rfl
  | call => rfl

end TransferKind

/-! ## Steps -/

/-- The word behind an address does not depend on the cell at that address. -/
theorem Memory.wordBehind_write (memory : Memory) (order : ByteOrder) (address : UInt16)
    (byte : UInt8) :
    (memory.write address byte).wordBehind order address = memory.wordBehind order address := by
  have first : address + 1 ≠ address := by grind
  have second : address + 2 ≠ address := by grind
  rw [wordBehind, read_write_other _ _ first, read_write_other _ _ second, wordBehind]

namespace Session

variable {config : Config} {session : Session} {kind : TransferKind} {form : Form}

section Whole

variable (found : session.form? = some form) (fits : session.behind form ≤ Memory.size)
  {machine : Machine} {next : Int}
  (executes : session.effect config form = { machine, ending := .proceed (some next) })
include found fits executes

/-- The step goes on at an address of memory. -/
theorem step_of_inside (inside : next ≤ 0xFFFF) :
    ∃ trace, session.step { table := .standard, config } =
      ({ { session with machine }.goTo (wordOf next) with steps := session.steps + 1, trace },
        .ok none) := by
  have attempts := attempt_of_form config found fits
  rw [executes, finish] at attempts
  simp only [if_neg (Int.not_lt.mpr inside)] at attempts
  exact ⟨_, step_of_completed attempts⟩

/-- The step ends behind memory, and the program counter stays. -/
theorem step_of_beyond (beyond : 0xFFFF < next) :
    ∃ trace, session.step { table := .standard, config } =
      ({ session with machine, halted := true, steps := session.steps + 1, trace },
        .ok (some .endOfMemory)) := by
  have attempts := attempt_of_form config found fits
  rw [executes, finish] at attempts
  simp only [if_pos beyond] at attempts
  exact ⟨_, step_of_completed attempts⟩

end Whole

/-- The word of the address behind an instruction that memory does not end with. -/
theorem wordOf_behind (inside : session.behind form < Memory.size) :
    wordOf (session.behind form : Int) = session.programCounter + UInt16.ofNat form.length := by
  have below : session.programCounter.toNat + form.length < 65536 := inside
  apply UInt16.toNat_inj.mp
  rw [behind, toNat_wordOf, UInt16.toNat_add, UInt16.toNat_ofNat']
  omega

/-- The session once a transfer without a condition has been made at its program counter. -/
def transferred (config : Config) (session : Session) (kind : TransferKind) : Session :=
  { session with
    machine := kind.onStack (session.programCounter.toNat + kind.length) session.machine }.goTo
      (kind.target (session.machine.memory.wordBehind config.operandOrder session.programCounter)
        session.machine)

/-- An instruction that does what the transfer without a condition does. -/
theorem step_of_transfer (found : session.form? = some form) (length : form.length = kind.length)
    (fits : session.behind form ≤ Memory.size)
    (transfers : session.effect config form =
      (kind.operation none).execute (session.contextOf config form) session.machine) :
    ∃ trace, session.step { table := .standard, config } =
      ({ session.transferred config kind with steps := session.steps + 1, trace }, .ok none) := by
  have inside : ((kind.target (session.machine.memory.wordBehind config.operandOrder
      session.programCounter) session.machine).toNat : Int) ≤ 0xFFFF := by
    have bound := (kind.target (session.machine.memory.wordBehind config.operandOrder
      session.programCounter) session.machine).toNat_lt
    omega
  have given : kind ≠ .ret → (session.contextOf config form).immediate =
      some (session.machine.memory.wordBehind config.operandOrder session.programCounter) := by
    intro other
    have width : form.width = 2 := by
      rw [Form.length] at length
      cases kind with
      | ret => exact absurd rfl other
      | jump => exact Nat.add_left_cancel length
      | call => exact Nat.add_left_cancel length
    simp only [contextOf, Memory.valueBehind, width]
  rw [kind.execute_unconditional given] at transfers
  obtain ⟨trace, steps⟩ := step_of_inside found fits transfers inside
  rw [wordOf_toNat, contextOf, behind, length] at steps
  exact ⟨trace, steps⟩

section Proceed

variable (found : session.form? = some form)
  (proceeds : session.effect config form =
    (session.contextOf config form).proceed session.machine)
include found proceeds

theorem step_of_proceed (inside : session.behind form < Memory.size) :
    ∃ trace, session.step { table := .standard, config } =
      ({ session.goTo (session.programCounter + UInt16.ofNat form.length) with
          steps := session.steps + 1, trace }, .ok none) := by
  have bound : (session.behind form : Int) ≤ 0xFFFF := by
    have size : Memory.size = 65536 := rfl
    omega
  obtain ⟨trace, steps⟩ := step_of_inside found inside.le proceeds bound
  have next : wordOf (session.contextOf config form).following =
    session.programCounter + UInt16.ofNat form.length := wordOf_behind inside
  rw [next] at steps
  exact ⟨trace, steps⟩

theorem step_of_proceed_atEnd (ends : session.behind form = Memory.size) :
    ∃ trace, session.step { table := .standard, config } =
      ({ session with halted := true, steps := session.steps + 1, trace },
        .ok (some .endOfMemory)) := by
  have beyond : (0xFFFF : Int) < (session.behind form : Int) := by
    rw [ends]
    decide
  exact step_of_beyond found ends.le proceeds beyond

end Proceed

/-! ## The transfer without a condition -/

/-- The session with the opcode without a condition in the place of the one at the program
counter. -/
def unconditional (session : Session) (kind : TransferKind) : Session :=
  session.poke session.programCounter kind.opcode

theorem step_unconditional
    (fits : session.programCounter.toNat + kind.length ≤ Memory.size) :
    ∃ trace, (session.unconditional kind).step { table := .standard, config } =
      ({ (session.unconditional kind).transferred config kind with
          steps := session.steps + 1, trace }, .ok none) := by
  obtain ⟨form, found, length, operation⟩ := kind.form_of_unconditional
  have opcode : (session.unconditional kind).opcode = kind.opcode :=
    Memory.read_write_same _ _ _
  rw [← opcode] at found
  have whole : (session.unconditional kind).behind form ≤ Memory.size := by
    rw [behind, length]
    exact fits
  refine step_of_transfer found length whole ?_
  rw [effect, operation]

/-- The sessions are the same in all but the trace and what stands in one cell of memory. -/
structure AgreesBut (address : UInt16) (first second : Session) : Prop where
  machine : first.machine.AgreesBut address second.machine
  others : second = { first with machine := second.machine, trace := second.trace }

theorem agreesBut_transferred (clear : kind.Clear session.programCounter session.machine) :
    (session.transferred config kind).machine.AgreesBut session.programCounter
      ((session.unconditional kind).transferred config kind).machine := by
  have agrees := Machine.AgreesBut.of_poke session.machine session.programCounter kind.opcode
  have word : (session.unconditional kind).machine.memory.wordBehind config.operandOrder
      (session.unconditional kind).programCounter =
        session.machine.memory.wordBehind config.operandOrder session.programCounter :=
    Memory.wordBehind_write _ _ _ _
  have target := kind.target_eq_of_agreesBut agrees clear
    (session.machine.memory.wordBehind config.operandOrder session.programCounter)
  rw [← word] at target
  rw [transferred, transferred, goTo, goTo, ← word, ← target]
  exact (kind.agreesBut_onStack agrees _).goTo _

/-! ## Both kinds of steps -/

/-- What a step does at a transfer on a condition.  A condition that holds makes it the step at the
transfer without one, and a condition that fails lets it only go on. -/
structure FollowsCondition (config : Config) (session : Session) (kind : TransferKind) : Prop where
  outcome_of_holds : ConditionHolds session.opcode session.machine.registers.status →
    (session.step { table := .standard, config }).2 = .ok none ∧
      ((session.unconditional kind).step { table := .standard, config }).2 = .ok none
  session_of_holds : ConditionHolds session.opcode session.machine.registers.status →
    kind.Clear session.programCounter session.machine →
      AgreesBut session.programCounter (session.step { table := .standard, config }).1
        ((session.unconditional kind).step { table := .standard, config }).1
  goesOn : ¬ ConditionHolds session.opcode session.machine.registers.status →
    session.programCounter.toNat + session.instructionLength < Memory.size →
      ∃ trace, session.step { table := .standard, config } =
        ({ session.goTo (session.programCounter + UInt16.ofNat session.instructionLength) with
            steps := session.steps + 1, trace }, .ok none)
  ends : ¬ ConditionHolds session.opcode session.machine.registers.status →
    session.programCounter.toNat + session.instructionLength = Memory.size →
      ∃ trace, session.step { table := .standard, config } =
        ({ session with halted := true, steps := session.steps + 1, trace },
          .ok (some .endOfMemory))

theorem instructionLength_of_form (found : session.form? = some form) :
    session.instructionLength = form.length := by
  rw [instructionLength, found]

/-- With the standard table every step at a transfer on a condition follows it. -/
theorem step_followsCondition (config : Config) (session : Session) (kind : TransferKind)
    (onCondition : kind.IsOnCondition session.opcode)
    (fits : session.programCounter.toNat + session.instructionLength ≤ Memory.size) :
    session.FollowsCondition config kind := by
  obtain ⟨form, condition, found, length, operation, holdsIn⟩ :=
    TransferKind.form_of_conditional onCondition
  have counted := instructionLength_of_form found
  rw [counted] at fits
  obtain ⟨plainTrace, plain⟩ : ∃ trace, (session.unconditional kind).step
      { table := .standard, config } =
        ({ (session.unconditional kind).transferred config kind with
            steps := session.steps + 1, trace }, .ok none) :=
    step_unconditional (by rw [← length]; exact fits)
  have transfers (holds : ConditionHolds session.opcode session.machine.registers.status) :
      ∃ trace, session.step { table := .standard, config } =
        ({ session.transferred config kind with steps := session.steps + 1, trace }, .ok none) := by
    refine step_of_transfer found length fits ?_
    rw [effect, operation]
    exact kind.execute_of_holds _ ((holdsIn _).mpr holds)
  have proceeds (fails : ¬ ConditionHolds session.opcode session.machine.registers.status) :
      session.effect config form = (session.contextOf config form).proceed session.machine := by
    rw [effect, operation]
    exact kind.execute_of_fails _ fun holds => fails ((holdsIn _).mp holds)
  constructor
  case outcome_of_holds =>
    intro holds
    obtain ⟨trace, steps⟩ := transfers holds
    rw [steps, plain]
    exact ⟨rfl, rfl⟩
  case session_of_holds =>
    intro holds clear
    obtain ⟨trace, steps⟩ := transfers holds
    rw [steps, plain]
    exact ⟨agreesBut_transferred clear, rfl⟩
  case goesOn =>
    intro fails inside
    rw [counted] at inside ⊢
    exact step_of_proceed found (proceeds fails) inside
  case ends =>
    intro fails atEnd
    rw [counted] at atEnd
    exact step_of_proceed_atEnd found (proceeds fails) atEnd

/-- A session before a call if the carry is set, which it is.  The call pushes over its opcode. -/
def beforeCall : Session :=
  { Session.initial .standard with
    machine := { Machine.initial with
      registers := { Registers.zeroed with stackPointer := 1, status := 1 }
      memory := ((Memory.blank.write 0 0xDC).write 1 0x34).write 2 0x12 } }

/-- A session at the last address before a return if the carry is clear, which it is not. -/
def beforeReturn : Session :=
  { Session.initial .standard with
    machine := { Machine.initial with
      registers := { Registers.zeroed with programCounter := 0xFFFF, status := 1 }
      memory := Memory.blank.write 0xFFFF 0xD0 } }

theorem step_followsCondition_of_call_and_return :
    (beforeCall.FollowsCondition .standard .call ∧
        (beforeCall.step { table := .standard, config := .standard }).2 = .ok none ∧
        AgreesBut 0 (beforeCall.step { table := .standard, config := .standard }).1
          ((beforeCall.poke 0 0xCD).step { table := .standard, config := .standard }).1) ∧
      (beforeReturn.FollowsCondition .standard .ret ∧
        ∃ trace, beforeReturn.step { table := .standard, config := .standard } =
          ({ beforeReturn with halted := true, steps := 1, trace }, .ok (some .endOfMemory))) := by
  have calls := step_followsCondition .standard beforeCall .call (by decide) (by decide)
  have returns := step_followsCondition .standard beforeReturn .ret (by decide) (by decide)
  have holds : ConditionHolds beforeCall.opcode beforeCall.machine.registers.status := by decide
  have fails : ¬ ConditionHolds beforeReturn.opcode beforeReturn.machine.registers.status := by
    decide
  exact ⟨⟨calls, (calls.outcome_of_holds holds).1, calls.session_of_holds holds (by decide)⟩,
    returns, returns.ends fails (by decide)⟩

end Session

end Intel8085
