import Intel8085.Proofs.InstructionSet.OperandFields
import Intel8085.Proofs.Session.ConditionalTransfers

/-!
# Steps at opcodes with operand fields

A move sets the place that its upper field names to what the place that its lower field names held
before, and a byte operation with a register or a cell of memory makes of the accumulator and the
status byte what the operation with an immediate makes of them, when the immediate is what the place
held before.  Nothing else changes but the program counter and the number of steps
(`step_followsFields`).
-/

set_option autoImplicit false

namespace Intel8085

/-! ## Places of a machine -/

/-- What holds a byte in a machine. -/
inductive Place where
  | register (register : Register)
  | cell (address : UInt16)
  deriving DecidableEq, Repr

namespace Machine

/-- The byte at a place. -/
def byteAt (machine : Machine) : Place → UInt8
  | .register register => machine.registers.read register
  | .cell address => machine.memory.read address

/-- The place of a location; the memory operand is the cell that HL addresses. -/
def placeOf (machine : Machine) : Location → Place
  | .register register => .register register
  | .memory => .cell machine.registers.hl

/-- The second machine is the first but for the bytes at some places and the program counter. -/
structure ChangesOnly (places : List Place) (first second : Machine) : Prop where
  bytes : ∀ place ∉ places, second.byteAt place = first.byteAt place
  stackPointer : second.registers.stackPointer = first.registers.stackPointer
  interruptsEnabled : second.registers.interruptsEnabled = first.registers.interruptsEnabled
  ports : second.ports = first.ports

variable (machine : Machine) (location : Location)

theorem readLocation_eq :
    machine.readLocation location = machine.byteAt (machine.placeOf location) := by
  cases location <;> rfl

theorem byteAt_writeLocation_same (byte : UInt8) :
    (machine.writeLocation location byte).byteAt (machine.placeOf location) = byte := by
  cases location with
  | register register => exact Registers.read_write_same _ _ _
  | memory => exact Memory.read_write_same _ _ _

theorem changesOnly_writeLocation (byte : UInt8) :
    machine.ChangesOnly [machine.placeOf location] (machine.writeLocation location byte) := by
  cases location with
  | register register =>
      constructor
      case bytes =>
        intro place other
        cases place with
        | cell address => rfl
        | register another =>
            apply Registers.read_write_other
            rintro rfl
            exact other (List.mem_singleton_self _)
      case ports => rfl
      all_goals cases register <;> rfl
  | memory =>
      constructor
      case bytes =>
        intro place other
        cases place with
        | register register => rfl
        | cell address =>
            apply Memory.read_write_other
            rintro rfl
            exact other (List.mem_singleton_self _)
      all_goals rfl

end Machine

/-! ## Byte operations -/

/-- What a byte operation makes of the accumulator and of the status byte. -/
def ByteOperation.applied (operation : ByteOperation) (accumulator status operand : UInt8) :
    UInt8 × UInt8 :=
  let result := operation.result accumulator.toNat operand.toNat
    (Flags.holds Flags.carryBit status).toInt
  (if operation.keepsResult then result.value else accumulator,
    Flags.replaceBits Flags.allBits status result.flags.toByte)

namespace Machine

variable (machine : Machine) (operation : ByteOperation) (operand : UInt8)

/-- The machine with the accumulator and the status byte of a byte operation. -/
def accumulated : Machine :=
  { machine with
    registers := { machine.registers with
      a := (operation.applied machine.registers.a machine.registers.status operand).1
      status := (operation.applied machine.registers.a machine.registers.status operand).2 } }

theorem accumulate_eq (context : Context) :
    context.accumulate machine operation operand.toNat =
      context.proceed (machine.accumulated operation operand) := by
  cases operation <;> rfl

theorem changesOnly_accumulated :
    machine.ChangesOnly [.register .a, .register .status]
      (machine.accumulated operation operand) := by
  constructor
  case bytes =>
    intro place other
    simp only [List.mem_cons, List.not_mem_nil, or_false, not_or] at other
    cases place with
    | cell address => rfl
    | register register => cases register <;> simp at other <;> rfl
  all_goals rfl

end Machine

/-! ## Steps -/

namespace Session

variable {config : Config} {session : Session} {form : Form}

theorem byteAt_goTo (session : Session) (address : UInt16) (place : Place) :
    (session.goTo address).machine.byteAt place = session.machine.byteAt place := by
  cases place with
  | cell other => rfl
  | register register => cases register <;> rfl

theorem record_of_quiet (quiet : session.tracing = false) (line : TraceLine) :
    session.record line = { session with steps := session.steps + 1 } := by
  simp [record, quiet]

/-- An instruction of at most two bytes is not the last thing in memory. -/
theorem behind_lt_size (inside : session.programCounter.toNat ≤ 0xFFFD) (short : form.length ≤ 2) :
    session.behind form < Memory.size := by
  have size : Memory.size = 65536 := rfl
  rw [behind]
  omega

/-- With the trace off, an instruction that goes on behind itself has made its changes to the machine,
and one more step is counted. -/
theorem step_of_quiet (quiet : session.tracing = false) (found : session.form? = some form)
    (inside : session.behind form < Memory.size) {machine : Machine}
    (executes : session.effect config form = (session.contextOf config form).proceed machine) :
    session.step { table := .standard, config } =
      ({ session with machine, steps := session.steps + 1 }.goTo
        (session.programCounter + UInt16.ofNat form.length), .ok none) := by
  have bound : ¬ (0xFFFF : Int) < (session.behind form : Int) := by
    have size : Memory.size = 65536 := rfl
    omega
  have attempts := attempt_of_form config found inside.le
  have stillQuiet : ({ session with machine } : Session).tracing = false := quiet
  have recorded := record_of_quiet stillQuiet
  rw [executes, finish] at attempts
  simp only [Context.proceed, contextOf, if_neg bound, recorded, wordOf_behind inside] at attempts
  exact step_of_completed attempts

/-- The step goes on behind an instruction of so many bytes, having changed only the bytes at some
places, and is counted. -/
structure StepsWithin (config : Config) (session : Session) (places : List Place) (length : Nat)
    (after : Session) : Prop where
  steps : session.step { table := .standard, config } = (after, .ok none)
  changes : session.machine.ChangesOnly places after.machine
  programCounter : after.programCounter = session.programCounter + UInt16.ofNat length
  others : after = { session with machine := after.machine, steps := session.steps + 1 }

theorem exists_stepsWithin (quiet : session.tracing = false) (found : session.form? = some form)
    (inside : session.behind form < Memory.size) {machine : Machine}
    (executes : session.effect config form = (session.contextOf config form).proceed machine)
    {places : List Place} (changes : session.machine.ChangesOnly places machine) :
    ∃ after, session.StepsWithin config places form.length after ∧
      ∀ place, after.machine.byteAt place = machine.byteAt place := by
  have bytes := byteAt_goTo { session with machine, steps := session.steps + 1 }
    (session.programCounter + UInt16.ofNat form.length)
  refine ⟨_, ⟨step_of_quiet quiet found inside executes, ?_, rfl, rfl⟩, bytes⟩
  constructor
  case bytes =>
    intro place other
    rw [bytes]
    exact changes.bytes place other
  case stackPointer => exact changes.stackPointer
  case interruptsEnabled => exact changes.interruptsEnabled
  case ports => exact changes.ports

/-! ## Operands -/

/-- The place that a code of three bits names. -/
def placeOfCode (session : Session) (code : Nat) : Place :=
  session.machine.placeOf (.ofCode code)

/-- The byte that the lower field of the opcode names. -/
def operandByte (session : Session) : UInt8 :=
  session.machine.byteAt (session.placeOfCode (lowerField session.opcode))

/-- The other session has the same accumulator and status byte, and it is before the operation with an
immediate, which is the operand of this one. -/
structure HasImmediateOf (session other : Session) : Prop where
  opcode : other.opcode = immediateOpcode session.opcode
  immediate : other.machine.memory.read (other.programCounter + 1) = session.operandByte
  inside : other.programCounter.toNat ≤ 0xFFFD
  accumulator : other.machine.registers.a = session.machine.registers.a
  status : other.machine.registers.status = session.machine.registers.status

/-- What a step does at an opcode with operand fields. -/
structure FollowsFields (config : Config) (session : Session) : Prop where
  moves : IsMove session.opcode → ∃ after,
    session.StepsWithin config [session.placeOfCode (upperField session.opcode)] 1 after ∧
      after.machine.byteAt (session.placeOfCode (upperField session.opcode)) = session.operandByte
  operates : IsByteOperation session.opcode → ∃ after,
    session.StepsWithin config [.register .a, .register .status] 1 after ∧
      ∀ other : Session, session.HasImmediateOf other → ∃ otherAfter,
        other.step { table := .standard, config } = (otherAfter, .ok none) ∧
          after.machine.registers.a = otherAfter.machine.registers.a ∧
          after.machine.registers.status = otherAfter.machine.registers.status

section Effects

theorem effect_of_move {destination source : Location}
    (operation : form.operation = .move destination source) :
    session.effect config form = (session.contextOf config form).proceed
      (session.machine.writeLocation destination (session.machine.readLocation source)) := by
  rw [effect, operation]
  rfl

theorem effect_of_location {operation : ByteOperation} {location : Location}
    (operates : form.operation = .accumulate operation (.location location)) :
    session.effect config form = (session.contextOf config form).proceed
      (session.machine.accumulated operation (session.machine.readLocation location)) := by
  rw [effect, operates, ← Machine.accumulate_eq]
  rfl

theorem effect_of_immediate {operation : ByteOperation} (length : form.length = 2)
    (operates : form.operation = .accumulate operation .immediate) :
    session.effect config form = (session.contextOf config form).proceed
      (session.machine.accumulated operation
        (session.machine.memory.read (session.programCounter + 1))) := by
  have width : form.width = 1 := Nat.add_left_cancel length
  have value : (joinBytes 0 (session.machine.memory.read (session.programCounter + 1))).toNat =
      (session.machine.memory.read (session.programCounter + 1)).toNat := by
    simp [toNat_joinBytes]
  have immediate : (session.contextOf config form).immediate =
      some (joinBytes 0 (session.machine.memory.read (session.programCounter + 1))) := by
    rw [contextOf, width]
    rfl
  rw [effect, operates, ← Machine.accumulate_eq, ← value]
  simp only [Operation.execute, immediate]

end Effects

/-- Equal accumulators, status bytes and operands give equal accumulators and status bytes. -/
theorem HasImmediateOf.accumulated {other : Session} (has : session.HasImmediateOf other)
    (operation : ByteOperation) :
    (other.machine.accumulated operation
        (other.machine.memory.read (other.programCounter + 1))).byteAt (.register .a) =
      (session.machine.accumulated operation session.operandByte).byteAt (.register .a) ∧
    (other.machine.accumulated operation
        (other.machine.memory.read (other.programCounter + 1))).byteAt (.register .status) =
      (session.machine.accumulated operation session.operandByte).byteAt (.register .status) := by
  have operand := has.immediate
  simp only [Machine.byteAt, Registers.read, Machine.accumulated, has.accumulator, has.status,
    operand, and_self]

/-- With the trace off and an instruction that memory does not end with, a step at an opcode with
operand fields follows them. -/
theorem step_followsFields (config : Config) (session : Session) (quiet : session.tracing = false)
    (inside : session.programCounter.toNat ≤ 0xFFFD) : session.FollowsFields config := by
  have size : Memory.size = 65536 := rfl
  constructor
  case moves =>
    intro moves
    obtain ⟨form, found, length, operation⟩ := form_of_move moves
    have below := behind_lt_size inside (length.trans_le (by decide))
    have executes : session.effect config form = _ := effect_of_move operation
    rw [Machine.readLocation_eq] at executes
    have changes := session.machine.changesOnly_writeLocation
      (.ofCode (upperField session.opcode)) session.operandByte
    obtain ⟨after, steps, bytes⟩ := exists_stepsWithin quiet found below executes changes
    rw [length] at steps
    refine ⟨after, steps, ?_⟩
    rw [bytes]
    exact Machine.byteAt_writeLocation_same _ _ _
  case operates =>
    intro operates
    obtain ⟨operation, ⟨form, found, length, here⟩, immediate, foundImmediate, two, there⟩ :=
      form_of_byteOperation operates
    have below := behind_lt_size inside (length.trans_le (by decide))
    have executes : session.effect config form = _ := effect_of_location here
    rw [Machine.readLocation_eq] at executes
    -- the operand is the byte before the step, also where it is that of the accumulator
    have changes := session.machine.changesOnly_accumulated operation session.operandByte
    obtain ⟨after, steps, bytes⟩ := exists_stepsWithin quiet found below executes changes
    rw [length] at steps
    refine ⟨after, steps, ?_⟩
    intro other has
    have belowThere := behind_lt_size has.inside two.le
    rw [← has.opcode] at foundImmediate
    have executesThere : other.effect config immediate = _ := effect_of_immediate two there
    obtain ⟨trace, otherSteps⟩ :=
      step_of_inside foundImmediate belowThere.le executesThere (by simp [contextOf]; omega)
    obtain ⟨accumulator, status⟩ := has.accumulated operation
    refine ⟨_, otherSteps, ?_, ?_⟩
    · exact (bytes (.register .a)).trans accumulator.symm
    · exact (bytes (.register .status)).trans status.symm

/-- A session before a move of the byte that HL addresses to H. -/
def beforeMove : Session :=
  { Session.initial .standard with
    tracing := false
    machine := { Machine.initial with
      registers := { Registers.zeroed with h := 0x20, l := 0x01 }
      memory := (Memory.blank.write 0 0x66).write 0x2001 0xAB } }

/-- A session before a subtraction of the accumulator and the carry from the accumulator. -/
def beforeSubtraction : Session :=
  { Session.initial .standard with
    tracing := false
    machine := { Machine.initial with
      registers := { Registers.zeroed with a := 0x42, status := 1 }
      memory := Memory.blank.write 0 0x9F } }

/-- A session before a subtraction of the immediate, which equals the accumulator, and the carry. -/
def beforeImmediateSubtraction : Session :=
  { beforeSubtraction with
    machine := { beforeSubtraction.machine with
      memory := (Memory.blank.write 0 0xDE).write 1 0x42 } }

theorem step_followsFields_of_move_and_subtraction :
    (∃ after, beforeMove.StepsWithin .standard [.register .h] 1 after ∧
        after.machine.byteAt (.register .h) = 0xAB) ∧
      ∃ after otherAfter, beforeSubtraction.StepsWithin .standard
          [.register .a, .register .status] 1 after ∧
        beforeImmediateSubtraction.step { table := .standard, config := .standard } =
          (otherAfter, .ok none) ∧
        after.machine.registers.a = otherAfter.machine.registers.a ∧
        otherAfter.machine.registers.a = 0xFF := by
  constructor
  · have follows := step_followsFields .standard beforeMove rfl (by decide)
    exact follows.moves (by decide)
  · have follows := step_followsFields .standard beforeSubtraction rfl (by decide)
    obtain ⟨after, steps, agrees⟩ := follows.operates (by decide)
    obtain ⟨otherAfter, otherSteps, accumulator, _⟩ := agrees beforeImmediateSubtraction
      ⟨by decide, by decide, by decide, rfl, rfl⟩
    obtain rfl := congrArg Prod.fst otherSteps
    exact ⟨after, _, steps, rfl, accumulator, by decide⟩

end Session

end Intel8085
