import Intel8085.Proofs.Machine.Endings

/-!
# The cells that operations touch

Apart from its own bytes, an instruction reads and writes only a few cells of memory, which the
operation and the registers determine (`Access.cells`).  An operation cannot tell what stands in any
other cell: writing there before the operation is the same as writing there after it
(`execute_poke`), which also means that the operation leaves the cell as it was.
-/

set_option autoImplicit false

namespace Intel8085

namespace Memory

theorem ext_read {first second : Memory}
    (agree : ∀ address : UInt16, first.read address = second.read address) : first = second := by
  apply Bank.ext_get
  intro address below
  have small : (UInt16.ofNat address).toNat = address := by
    rw [UInt16.toNat_ofNat']
    omega
  have same := agree (UInt16.ofNat address)
  rwa [read, read, small] at same

theorem write_comm (memory : Memory) {first second : UInt16} (distinct : first ≠ second)
    (byte other : UInt8) :
    (memory.write first byte).write second other = (memory.write second other).write first byte := by
  apply ext_read
  intro address
  by_cases atFirst : address = first
  · subst atFirst
    rw [read_write_other _ other distinct, read_write_same, read_write_same]
  · by_cases atSecond : address = second
    · subst atSecond
      rw [read_write_same, read_write_other _ byte atFirst, read_write_same]
    · rw [read_write_other _ other atSecond, read_write_other _ byte atFirst,
        read_write_other _ byte atFirst, read_write_other _ other atSecond]

theorem write_read (memory : Memory) (address : UInt16) :
    memory.write address (memory.read address) = memory := by
  apply ext_read
  intro other
  by_cases same : other = address
  · rw [same, read_write_same]
  · rw [read_write_other _ _ same]

end Memory

/-! ## The cells of an access -/

/-- Which cells of memory an operation touches. -/
inductive Access where
  | nowhere
  | atHL
  | atImmediate
  | wordAtImmediate
  | atPair (pair : Pair)
  | popped (condition : Option Condition)
  | pushed (condition : Option Condition)
  deriving DecidableEq, Repr

/-- The addresses of the cells, where `word` is the immediate of the instruction.  The address after
the highest is the lowest. -/
def Access.cells (access : Access) (word : UInt16) (machine : Machine) : List UInt16 :=
  let stackPointer := machine.registers.stackPointer
  let holds := fun condition : Condition => condition.holdsIn machine.registers.status
  match access with
  | .nowhere => []
  | .atHL => [machine.registers.hl]
  | .atImmediate => [word]
  | .wordAtImmediate => [word, word + 1]
  | .atPair pair => [machine.registers.pair pair]
  | .popped condition => if condition.all holds then [stackPointer, stackPointer + 1] else []
  | .pushed condition => if condition.all holds then [stackPointer - 1, stackPointer - 2] else []

/-- A conditional transfer that is carried out touches what the unconditional one touches. -/
theorem Access.cells_of_holds {condition : Option Condition} {machine : Machine}
    (holds : (condition.all fun condition => condition.holdsIn machine.registers.status) = true)
    (word : UInt16) :
    (Access.popped condition).cells word machine = (Access.popped none).cells 0 machine ∧
      (Access.pushed condition).cells word machine = (Access.pushed none).cells 0 machine := by
  simp [Access.cells, holds]

def Location.access : Location → Access
  | .memory => .atHL
  | .register _ => .nowhere

def Operation.access : Operation → Access
  | .move destination source => if destination = .memory then .atHL else source.access
  | .moveImmediate destination => destination.access
  | .loadAccumulator => .atImmediate
  | .storeAccumulator => .atImmediate
  | .loadHL => .wordAtImmediate
  | .storeHL => .wordAtImmediate
  | .loadIndirect pointer => .atPair pointer
  | .storeIndirect pointer => .atPair pointer
  | .exchangeStackTop => .popped none
  | .push _ => .pushed none
  | .pop _ => .popped none
  | .accumulate _ (.location location) => location.access
  | .increment location => location.access
  | .decrement location => location.access
  | .call condition => .pushed condition
  | .ret condition => .popped condition
  | .restart _ => .pushed none
  | .pushThenFail _ => .pushed none
  | _ => .nowhere

namespace Machine

/-- The machine with a byte put into a cell of memory. -/
def poke (machine : Machine) (address : UInt16) (byte : UInt8) : Machine :=
  { machine with memory := machine.memory.write address byte }

variable (machine : Machine) {address : UInt16} (byte : UInt8)

theorem poke_read : machine.poke address (machine.memory.read address) = machine := by
  rw [poke, Memory.write_read]

theorem read_poke {other : UInt16} (apart : address ≠ other) :
    (machine.poke address byte).memory.read other = machine.memory.read other :=
  Memory.read_write_other machine.memory byte apart.symm

theorem write_poke {other : UInt16} (apart : address ≠ other) (value : UInt8) :
    { machine.poke address byte with
      memory := (machine.poke address byte).memory.write other value } =
      Machine.poke { machine with memory := machine.memory.write other value } address byte := by
  simp only [poke, Memory.write_comm machine.memory apart]

theorem readLocation_poke {location : Location} {word : UInt16}
    (outside : address ∉ location.access.cells word machine) :
    (machine.poke address byte).readLocation location = machine.readLocation location := by
  cases location with
  | register register => rfl
  | memory => exact machine.read_poke byte (List.ne_of_not_mem_cons outside)

theorem writeLocation_poke {location : Location} {word : UInt16}
    (outside : address ∉ location.access.cells word machine) (value : UInt8) :
    (machine.poke address byte).writeLocation location value =
      (machine.writeLocation location value).poke address byte := by
  cases location with
  | register register => rfl
  | memory => exact machine.write_poke byte (List.ne_of_not_mem_cons outside) value

section Words

variable {start : UInt16} (outside : address ∉ [start, start + 1])
include outside

theorem readWord_poke :
    (machine.poke address byte).readWord start = machine.readWord start := by
  simp only [List.mem_cons, List.not_mem_nil, or_false, not_or] at outside
  rw [readWord, machine.read_poke byte outside.1, machine.read_poke byte outside.2, readWord]

theorem writeWord_poke (word : UInt16) :
    (machine.poke address byte).writeWord start word =
      (machine.writeWord start word).poke address byte := by
  simp only [List.mem_cons, List.not_mem_nil, or_false, not_or] at outside
  simp only [writeWord, poke, Memory.write_comm _ outside.1, Memory.write_comm _ outside.2]

end Words

theorem top_poke (outside : address ∉ (Access.popped none).cells 0 machine) :
    (machine.poke address byte).top = machine.top :=
  machine.readWord_poke byte outside

/-- The word that is pushed lies below the stack pointer. -/
theorem push_poke (outside : address ∉ (Access.pushed none).cells 0 machine) (word : UInt16) :
    (machine.poke address byte).push word = (machine.push word).poke address byte := by
  have top : machine.registers.stackPointer - 2 + 1 = machine.registers.stackPointer - 1 := by
    grind
  have outsideWord : address ∉
      [machine.registers.stackPointer - 2, machine.registers.stackPointer - 2 + 1] := by
    rw [top]
    simpa [Access.cells, and_comm] using outside
  exact Machine.writeWord_poke (machine.setStackPointer _) byte outsideWord word

end Machine

/-! ## Effects -/

/-- The effect with a byte put into a cell of memory afterwards. -/
def Effect.poke (effect : Effect) (address : UInt16) (byte : UInt8) : Effect :=
  { effect with machine := effect.machine.poke address byte }

namespace Context

variable (context : Context) {machine : Machine} {address : UInt16} (byte : UInt8)

/-- Only the word of the context counts for an operation that takes an immediate. -/
theorem withImmediate_poke {operation afterPoke : UInt16 → Machine}
    (commutes : afterPoke context.word = (operation context.word).poke address byte) :
    context.withImmediate (machine.poke address byte) afterPoke =
      (context.withImmediate machine operation).poke address byte := by
  rw [withImmediate, withImmediate]
  rw [word] at commutes
  cases given : context.immediate with
  | none => rfl
  | some value =>
      rw [given, Option.getD_some] at commutes
      simp only [commutes]
      rfl

theorem ifModelled_poke {effect afterPoke : Effect}
    (commutes : afterPoke = effect.poke address byte) :
    context.ifModelled (machine.poke address byte) afterPoke =
      (context.ifModelled machine effect).poke address byte := by
  rw [ifModelled, ifModelled]
  split
  · exact commutes
  · rfl

theorem withPort_poke {operation afterPoke : UInt8 → Machine}
    (commutes : ∀ port, afterPoke port = (operation port).poke address byte) :
    context.withPort (machine.poke address byte) afterPoke =
      (context.withPort machine operation).poke address byte := by
  apply context.ifModelled_poke byte
  cases context.immediate with
  | none => rfl
  | some value =>
      simp only
      cases Ports.port value.toNat with
      | error fault => rfl
      | ok port =>
          simp only [commutes]
          rfl

/-- A transfer has to be looked at only where its condition holds. -/
theorem onCondition_poke {condition : Option Condition} {effect afterPoke : Effect}
    (commutes : (condition.all fun condition => condition.holdsIn machine.registers.status) = true →
      afterPoke = effect.poke address byte) :
    context.onCondition (machine.poke address byte) condition afterPoke =
      (context.onCondition machine condition effect).poke address byte := by
  rw [onCondition, onCondition]
  by_cases holds : (condition.all fun condition => condition.holdsIn machine.registers.status) = true
  · rw [if_pos holds]
    exact (if_pos holds).trans (commutes holds)
  · rw [if_neg holds]
    exact if_neg holds

theorem accumulate_poke (operation : ByteOperation) (operand : Int) :
    context.accumulate (machine.poke address byte) operation operand =
      (context.accumulate machine operation operand).poke address byte := by
  cases operation <;> rfl

theorem count_poke {location : Location} {word : UInt16}
    (outside : address ∉ location.access.cells word machine)
    (operation : Int → Arithmetic.Result) :
    context.count (machine.poke address byte) location operation =
      (context.count machine location operation).poke address byte := by
  rw [count, machine.readLocation_poke byte outside, machine.writeLocation_poke byte outside]
  rfl

end Context

/-- An operation cannot tell what stands in a cell that it does not touch. -/
theorem execute_poke (operation : Operation) (context : Context) (machine : Machine)
    {address : UInt16} (outside : address ∉ operation.access.cells context.word machine)
    (byte : UInt8) :
    operation.execute context (machine.poke address byte) =
      (operation.execute context machine).poke address byte := by
  cases operation with
  | move destination source =>
      -- the access names the cell at HL once, whether it is the source or the destination
      have apart : address ∉ source.access.cells context.word machine ∧
          address ∉ destination.access.cells context.word machine := by
        cases destination with
        | memory =>
            cases source with
            | memory => exact ⟨outside, outside⟩
            | register register => exact ⟨List.not_mem_nil, outside⟩
        | register register => exact ⟨outside, List.not_mem_nil⟩
      rw [Operation.execute, machine.readLocation_poke byte apart.1,
        machine.writeLocation_poke byte apart.2]
      rfl
  | moveImmediate destination =>
      exact context.withImmediate_poke byte (machine.writeLocation_poke byte outside _)
  | loadPair pair => exact context.withImmediate_poke byte rfl
  | loadAccumulator =>
      apply context.withImmediate_poke byte
      rw [machine.read_poke byte (List.ne_of_not_mem_cons outside)]
      rfl
  | storeAccumulator =>
      exact context.withImmediate_poke byte
        (machine.write_poke byte (List.ne_of_not_mem_cons outside) _)
  | loadHL =>
      apply context.withImmediate_poke byte
      rw [machine.readWord_poke byte outside]
      rfl
  | storeHL => exact context.withImmediate_poke byte (machine.writeWord_poke byte outside _)
  | loadIndirect pointer =>
      have read : (machine.poke address byte).memory.read
          ((machine.poke address byte).registers.pair pointer) =
          machine.memory.read (machine.registers.pair pointer) :=
        machine.read_poke byte (List.ne_of_not_mem_cons outside)
      rw [Operation.execute, read]
      rfl
  | storeIndirect pointer =>
      exact congrArg context.proceed (machine.write_poke byte (List.ne_of_not_mem_cons outside) _)
  | exchangeStackTop =>
      have write := machine.writeWord_poke byte outside machine.registers.hl
      rw [Operation.execute, machine.top_poke byte outside]
      exact congrArg (fun written => context.proceed (written.setPair .hl machine.top)) write
  | push pair => exact congrArg context.proceed (machine.push_poke byte outside _)
  | pop pair =>
      rw [Operation.execute, machine.top_poke byte outside]
      rfl
  | accumulate operation operand =>
      cases operand with
      | location location =>
          rw [Operation.execute, machine.readLocation_poke byte outside]
          exact context.accumulate_poke byte operation _
      | immediate =>
          simp only [Operation.execute]
          cases context.immediate with
          | none => rfl
          | some value => exact context.accumulate_poke byte operation _
  | increment location => exact context.count_poke byte outside _
  | decrement location => exact context.count_poke byte outside _
  | decimalAdjust => exact context.ifModelled_poke byte rfl
  | jump condition => exact context.onCondition_poke byte fun _ => rfl
  | call condition =>
      apply context.onCondition_poke byte
      intro holds
      have outsideStack := (Access.cells_of_holds holds context.word).2 ▸ outside
      exact congrArg context.transfer (machine.push_poke byte outsideStack _)
  | ret condition =>
      apply context.onCondition_poke byte
      intro holds
      have outsideStack := (Access.cells_of_holds holds context.word).1 ▸ outside
      rw [machine.top_poke byte outsideStack]
      rfl
  | restart number =>
      exact congrArg (fun pushed => Effect.mk pushed _) (machine.push_poke byte outside _)
  | input => exact context.withPort_poke byte fun port => rfl
  | output => exact context.withPort_poke byte fun port => rfl
  | pushThenFail defect =>
      exact congrArg (fun pushed => Effect.mk pushed _) (machine.push_poke byte outside _)
  | _ => rfl

/-! ## Ports -/

theorem Machine.ports_writeLocation (machine : Machine) (location : Location) (byte : UInt8) :
    (machine.writeLocation location byte).ports = machine.ports := by
  cases location <;> rfl

namespace Context

variable (context : Context) {machine : Machine}

theorem ports_withPort {operation : UInt8 → Machine} :
    (context.withPort machine operation).machine.ports = machine.ports ∨
      context.config.modelsIoAndBcd = true ∧
        (context.withPort machine operation).machine = operation (byteOf context.word.toNat) := by
  rw [withPort, ifModelled, word]
  split
  · rename_i modelled
    cases context.immediate with
    | none => exact Or.inl rfl
    | some value =>
        simp only [Ports.port, Option.getD_some]
        by_cases named : 0 ≤ (value.toNat : Int) ∧ (value.toNat : Int) ≤ 0xFF
        · simp only [if_pos named]
          exact Or.inr ⟨modelled, rfl⟩
        · left
          simp only [if_neg named]
  · exact Or.inl rfl

end Context

/-- No operation but an output that is modelled changes the ports. -/
theorem ports_execute (operation : Operation) (context : Context) (machine : Machine) :
    (operation.execute context machine).machine.ports = machine.ports ∨
      operation = .output ∧ context.config.modelsIoAndBcd = true ∧
        (operation.execute context machine).machine.ports =
          machine.ports.write (byteOf context.word.toNat) machine.registers.a := by
  cases operation with
  | output =>
      rcases context.ports_withPort with kept | ⟨modelled, written⟩
      · exact Or.inl kept
      · exact Or.inr ⟨rfl, modelled, congrArg Machine.ports written⟩
  | input => exact Or.inl (context.keeps_withPort Machine.ports fun port => rfl)
  | move destination source => exact Or.inl (machine.ports_writeLocation destination _)
  | moveImmediate destination =>
      exact Or.inl (context.keeps_withImmediate Machine.ports fun value =>
        machine.ports_writeLocation destination _)
  | loadPair pair => exact Or.inl (context.keeps_withImmediate Machine.ports fun value => rfl)
  | loadAccumulator => exact Or.inl (context.keeps_withImmediate Machine.ports fun address => rfl)
  | storeAccumulator => exact Or.inl (context.keeps_withImmediate Machine.ports fun address => rfl)
  | loadHL => exact Or.inl (context.keeps_withImmediate Machine.ports fun address => rfl)
  | storeHL => exact Or.inl (context.keeps_withImmediate Machine.ports fun address => rfl)
  | accumulate operation operand =>
      cases operand with
      | location location =>
          left
          cases operation <;> rfl
      | immediate =>
          left
          simp only [Operation.execute]
          cases context.immediate with
          | none => rfl
          | some value => cases operation <;> rfl
  | increment location => exact Or.inl (machine.ports_writeLocation location _)
  | decrement location => exact Or.inl (machine.ports_writeLocation location _)
  | decimalAdjust =>
      left
      rw [Operation.execute, Context.ifModelled]
      split <;> rfl
  | jump condition => exact Or.inl (context.keeps_onCondition Machine.ports condition rfl)
  | call condition => exact Or.inl (context.keeps_onCondition Machine.ports condition rfl)
  | ret condition => exact Or.inl (context.keeps_onCondition Machine.ports condition rfl)
  | _ => exact Or.inl rfl

end Intel8085
