import Intel8085.Proofs.Integers.Machine

/-!
# Operations on integers

What an operation does to a machine that holds integers, written as the handler that does it: which
registers, cells and ports are read, what is computed, and what is assigned in which order.  The
complement of the accumulator and the word before or behind a pair are assigned as they are, whatever
their size; an operation whose immediate is missing breaks off where it needs it, and the address of
the next instruction may be any integer.

On the values of bytes and words the handler of an operation does what the operation does
(`on_ofOperation`).
-/

set_option autoImplicit false

namespace Intel8085

/-- What a handler knows beside the machine. -/
structure IntegerContext where
  modelsIoAndBcd : Bool
  following : Int
  immediate : Option Int

namespace IntegerContext

/-- The immediate, which a pattern without immediate bytes does not have. -/
def value (context : IntegerContext) : Handler Int :=
  match context.immediate with
  | some value => return value
  | none => throw .defect

/-- The work of an operation that is followed by the next instruction. -/
def proceed (context : IntegerContext) (work : Handler Unit) : Handler (Option Int) := do
  work
  return some context.following

def ifModelled (context : IntegerContext) (handler : Handler (Option Int)) : Handler (Option Int) :=
  if context.modelsIoAndBcd then handler else throw .fault

end IntegerContext

namespace Handler

def test (condition : Condition) : Handler Bool :=
  return (← holds condition.bit.toNat) == condition.wanted

def onCondition (context : IntegerContext) (condition : Option Condition)
    (transfer : Handler (Option Int)) : Handler (Option Int) := do
  match condition with
  | none => transfer
  | some condition => if ← test condition then transfer else return some context.following

def carry : Handler Int :=
  return (← holds Flags.carryBit.toNat).toInt

/-- The accumulator is assigned before the flags are. -/
def setResult (mask : UInt8) (result : Arithmetic.Result) : Handler Unit := do
  setRegister .a result.value.toNat
  setStatus mask.toNat result.flags.toByte.toNat

def accumulate (operation : ByteOperation) (operand : Int) : Handler Unit := do
  let result := operation.result (← register .a) operand (← carry)
  if operation.keepsResult then setRegister .a result.value.toNat
  setStatus Flags.allBits.toNat result.flags.toByte.toNat

def count (location : Location) (operation : Int → Arithmetic.Result) : Handler Unit := do
  let result := operation (← readLocation location)
  writeLocation location result.value.toNat
  setStatus Flags.allBitsButCarry.toNat result.flags.toByte.toNat

/-- The handler of an operation, with the address of the next instruction as its result. -/
def ofOperation (operation : Operation) (context : IntegerContext) : Handler (Option Int) :=
  match operation with
  | .move destination source =>
      context.proceed do writeLocation destination (← readLocation source)
  | .moveImmediate destination => context.proceed do writeLocation destination (← context.value)
  | .loadPair named => context.proceed do setPair named (← context.value)
  | .loadAccumulator => context.proceed do setRegister .a (← readCell (← context.value))
  | .storeAccumulator => context.proceed do writeCell (← context.value) (← register .a)
  | .loadHL => context.proceed do
      let address ← context.value
      setRegister .l (← readCell address)
      setRegister .h (← readCell ((address + 1) % 65536))
  | .storeHL => context.proceed do
      let address ← context.value
      writeCell address (← register .l)
      writeCell ((address + 1) % 65536) (← register .h)
  | .loadIndirect pointer => context.proceed do setRegister .a (← readCell (← pair pointer))
  | .storeIndirect pointer => context.proceed do writeCell (← pair pointer) (← register .a)
  | .exchangePairs => context.proceed do
      let de ← pair .de
      let hl ← pair .hl
      assignPair .hl de
      assignPair .de hl
  | .stackPointerFromHL => context.proceed do assignPair .stackPointer (← pair .hl)
  | .exchangeStackTop => context.proceed do
      let top ← pair .stackPointer
      let low ← readCell top
      let high ← readCell ((top + 1) % 65536)
      writeCell top (← register .l)
      writeCell ((top + 1) % 65536) (← register .h)
      setRegister .l low
      setRegister .h high
  | .push named => context.proceed do push (← pair named)
  | .pop named => context.proceed do setPair named (← pull)
  | .accumulate operation .immediate => context.proceed do
      accumulate operation (← context.value)
  | .accumulate operation (.location location) => context.proceed do
      accumulate operation (← readLocation location)
  | .increment location => context.proceed do count location Arithmetic.increment
  | .decrement location => context.proceed do count location Arithmetic.decrement
  | .incrementPair named => context.proceed do setPair named ((← pair named) + 1)
  | .decrementPair named => context.proceed do setPair named ((← pair named) - 1)
  | .addPair named => context.proceed do
      let sum := Arithmetic.addWords (← pair .hl) (← pair named)
      assignPair .hl sum.value.toNat
      setStatus Flags.carryBit.toNat (Flags.onlyCarry sum.carry).toByte.toNat
  | .decimalAdjust => context.ifModelled <| context.proceed do
      setResult Flags.allBits (Arithmetic.decimalAdjust (← register .a) (← register .status))
  | .rotate rotation => context.proceed do
      setResult Flags.carryBit (rotation.result (← register .a) (← carry))
  | .complement => context.proceed do setRegister .a (← register .a).lnot
  | .complementCarry => context.proceed do
      setRegister .status ((← register .status).xor Flags.carryBit.toNat)
  | .setCarry => context.proceed do
      setRegister .status ((← register .status).lor Flags.carryBit.toNat)
  | .jump condition => onCondition context condition do return context.immediate
  | .call condition => onCondition context condition do
      push context.following
      return context.immediate
  | .ret condition => onCondition context condition do return some (← pull)
  | .restart number => do
      push context.following
      return some (number * 8)
  | .jumpToHL => return some (← pair .hl)
  | .input => context.ifModelled <| context.proceed do
      setRegister .a (← readPort (← context.value))
  | .output => context.ifModelled <| context.proceed do
      writePort (← context.value) (← register .a)
  | .enableInterrupts => context.proceed do
      changeRegisters fun registers => { registers with interruptsEnabled := true }
  | .disableInterrupts => context.proceed do
      changeRegisters fun registers => { registers with interruptsEnabled := false }
  | .interruptMask => throw .fault
  | .noOperation => context.proceed do return
  | .halt => throw .halt
  | .defective _ => throw .defect
  | .pullThenFail _ => do
      let _ ← pull
      throw .defect
  | .pushThenFail _ => do
      push context.following
      throw .defect

end Handler

/-! ## On the values of bytes and words -/

def Context.integers (context : Context) : IntegerContext where
  modelsIoAndBcd := context.config.modelsIoAndBcd
  following := context.following
  immediate := context.immediate.map fun value => (value.toNat : Int)

/-- How an operation ends, as far as its handler tells. -/
def Ending.integers : Ending → Except Exit (Option Int)
  | .proceed next => .ok next
  | .halt => .error .halt
  | .fault _ => .error .fault
  | .defect _ => .error .defect

def Effect.integers (effect : Effect) : Except Exit (Option Int) × IntegerMachine :=
  (effect.ending.integers, effect.machine.integers)

theorem wordOf_following (context : Context) :
    wordOf context.integers.following = UInt16.ofNat context.following := by
  apply UInt16.toNat_inj.1
  rw [toNat_wordOf, UInt16.toNat_ofNat']
  simp only [Context.integers]
  omega

theorem byteOf_word (word : UInt16) : byteOf word.toNat = lowByte word := by
  rw [← lowByte_wordOf, wordOf_toNat]

theorem wordOf_add_one (word : UInt16) : wordOf ((word.toNat : Int) + 1) = word + 1 := by
  have one : (1 : UInt16).toNat = 1 := rfl
  apply UInt16.toNat_inj.1
  rw [toNat_wordOf, UInt16.toNat_add, one]
  omega

theorem wordOf_sub_one (word : UInt16) : wordOf ((word.toNat : Int) - 1) = word - 1 := by
  have one : (1 : UInt16).toNat = 1 := rfl
  apply UInt16.toNat_inj.1
  rw [toNat_wordOf, UInt16.toNat_sub, one]
  omega

namespace Machine

variable (machine : Machine)

theorem setPair_hl_joinBytes (high low : UInt8) :
    machine.setPair .hl (joinBytes high low) =
      { machine with registers := (machine.registers.write .l low).write .h high } := by
  simp only [setPair, Registers.setPair, highByte_joinBytes, lowByte_joinBytes]
  rfl

theorem writeWord_hl (address : UInt16) :
    machine.writeWord address machine.registers.hl = { machine with
      memory := (machine.memory.write address (machine.registers.read .l)).write (address + 1)
        (machine.registers.read .h) } := by
  simp only [writeWord, Registers.hl, Registers.pair, highByte_joinBytes, lowByte_joinBytes]
  rfl

end Machine

namespace Handler

variable {context : Context} {machine : Machine}

theorem on_proceed {work : Handler Unit} {after : Machine}
    (does : work.on machine.integers = (.ok (), after.integers)) :
    (context.integers.proceed work).on machine.integers = (context.proceed after).integers := by
  rw [IntegerContext.proceed, on_bind, does]
  rfl

/-- The work of an operation behind what it reads first. -/
theorem on_proceed_of_reads {Value : Type} {reading : Handler Value} {value : Value}
    {work : Value → Handler Unit}
    (reads : reading.on machine.integers = (.ok value, machine.integers)) :
    (context.integers.proceed (reading >>= work)).on machine.integers =
      (context.integers.proceed (work value)).on machine.integers := by
  simp only [IntegerContext.proceed, on_bind, reads, continueOn_ok]

theorem on_value {value : UInt16} (given : context.immediate = some value) :
    context.integers.value.on machine.integers = (.ok value.toNat, machine.integers) := by
  simp only [IntegerContext.value, Context.integers, given]
  rfl

theorem on_proceed_of_missing {work : Int → Handler Unit} (missing : context.immediate = none) :
    (context.integers.proceed (context.integers.value >>= work)).on machine.integers =
      (.error .defect, machine.integers) := by
  simp only [IntegerContext.proceed, IntegerContext.value, Context.integers, missing]
  rfl

theorem on_withImmediate {work : Int → Handler Unit} {operation : UInt16 → Machine}
    (does : ∀ value : UInt16,
      (work value.toNat).on machine.integers = (.ok (), (operation value).integers)) :
    (context.integers.proceed (context.integers.value >>= work)).on machine.integers =
      (context.withImmediate machine operation).integers := by
  rw [Context.withImmediate]
  cases given : context.immediate with
  | none => exact on_proceed_of_missing given
  | some value =>
      rw [on_proceed_of_reads (on_value given)]
      exact on_proceed (does value)

theorem on_ifModelled {handler : Handler (Option Int)} {effect : Effect}
    (does : handler.on machine.integers = effect.integers) :
    (context.integers.ifModelled handler).on machine.integers =
      (context.ifModelled machine effect).integers := by
  cases modelled : context.config.modelsIoAndBcd with
  | true =>
      simp only [IntegerContext.ifModelled, Context.ifModelled, Context.integers, modelled, if_true]
      exact does
  | false =>
      simp only [IntegerContext.ifModelled, Context.ifModelled, Context.integers, modelled]
      rfl

theorem on_withPort {work : Int → Handler Unit} {operation : UInt8 → Machine}
    (does : ∀ port : UInt8,
      (work port.toNat).on machine.integers = (.ok (), (operation port).integers))
    (refuses : ∀ port : Int, ¬ (0 ≤ port ∧ port < 256) →
      (work port).on machine.integers = (.error .fault, machine.integers)) :
    (context.integers.ifModelled (context.integers.proceed (context.integers.value >>= work))).on
      machine.integers = (context.withPort machine operation).integers := by
  apply on_ifModelled
  cases given : context.immediate with
  | none => exact on_proceed_of_missing given
  | some value =>
      rw [on_proceed_of_reads (on_value given)]
      by_cases inside : 0 ≤ (value.toNat : Int) ∧ (value.toNat : Int) < 256
      · obtain ⟨port, named⟩ := exists_byte inside
        simp only [named, Ports.port_toNat]
        exact on_proceed (does port)
      · simp only [Ports.port_of_outside inside]
        rw [IntegerContext.proceed, on_bind, refuses _ inside]
        rfl

theorem on_test (condition : Condition) :
    (test condition).on machine.integers =
      (.ok (condition.holdsIn machine.registers.status), machine.integers) := by
  simp only [test, on_bind, on_holds, continueOn_ok, on_pure]
  rfl

theorem on_onCondition (condition : Option Condition) {transfer : Handler (Option Int)}
    {effect : Effect} (does : transfer.on machine.integers = effect.integers) :
    (onCondition context.integers condition transfer).on machine.integers =
      (context.onCondition machine condition effect).integers := by
  cases condition with
  | none => exact does
  | some condition =>
      rw [onCondition, on_bind, on_test, continueOn_ok, Context.onCondition, Option.all_some]
      by_cases holds : condition.holdsIn machine.registers.status = true
      · rw [if_pos holds, if_pos holds]
        exact does
      · rw [if_neg holds, if_neg holds]
        rfl

theorem on_carry :
    carry.on machine.integers = (.ok machine.registers.carry.toInt, machine.integers) := by
  simp only [carry, on_bind, on_holds, continueOn_ok, on_pure]
  rfl

theorem on_setResult (mask : UInt8) (result : Arithmetic.Result) :
    (setResult mask result).on machine.integers =
      (.ok (), ((machine.setAccumulator result.value).setFlags mask result.flags).integers) := by
  simp only [setResult, on_bind, on_setRegister, continueOn_ok, on_setStatus, byteOf_toNat]
  rfl

theorem on_accumulate (operation : ByteOperation) (operand : Int) :
    (context.integers.proceed (accumulate operation operand)).on machine.integers =
      (context.accumulate machine operation operand).integers := by
  apply on_proceed
  simp only [accumulate, on_bind, on_register, on_carry, continueOn_ok]
  cases operation.keepsResult with
  | true =>
      simp only [if_true, on_bind, on_setRegister, continueOn_ok, on_setStatus, byteOf_toNat]
      rfl
  | false =>
      simp only [Bool.false_eq_true, if_false, on_setStatus, byteOf_toNat]
      rfl

theorem on_count (location : Location) (operation : Int → Arithmetic.Result) :
    (context.integers.proceed (count location operation)).on machine.integers =
      (context.count machine location operation).integers := by
  apply on_proceed
  simp only [count, on_bind, on_readLocation, continueOn_ok, on_writeLocation, on_setStatus,
    byteOf_toNat]
  rfl

theorem on_ofOperation (operation : Operation) (context : Context) (machine : Machine) :
    (ofOperation operation context.integers).on machine.integers =
      (operation.execute context machine).integers := by
  cases operation with
  | move destination source =>
      apply on_proceed
      simp only [on_bind, on_readLocation, continueOn_ok, on_writeLocation, byteOf_toNat]
  | moveImmediate destination =>
      apply on_withImmediate
      intro value
      simp only [on_writeLocation, byteOf_word]
  | loadPair named =>
      apply on_withImmediate
      intro value
      simp only [on_setPair, wordOf_toNat]
  | loadAccumulator =>
      apply on_withImmediate
      intro value
      simp only [on_bind, on_readCell, continueOn_ok, on_setRegister, byteOf_toNat]
      rfl
  | storeAccumulator =>
      apply on_withImmediate
      intro value
      simp only [on_bind, on_register, continueOn_ok, on_writeCell, byteOf_toNat]
      rfl
  | loadHL =>
      apply on_withImmediate
      intro value
      simp only [on_bind, on_readCell, continueOn_ok, on_setRegister, byteOf_toNat,
        emod_word_add_one, Machine.readWord, Machine.setPair_hl_joinBytes]
  | storeHL =>
      apply on_withImmediate
      intro value
      simp only [on_bind, on_register, continueOn_ok, on_writeCell, byteOf_toNat,
        emod_word_add_one, Machine.writeWord_hl]
  | loadIndirect pointer =>
      apply on_proceed
      simp only [on_bind, on_pair, on_readCell, continueOn_ok, on_setRegister, byteOf_toNat]
      rfl
  | storeIndirect pointer =>
      apply on_proceed
      simp only [on_bind, on_pair, on_register, on_writeCell, continueOn_ok, byteOf_toNat]
      rfl
  | exchangePairs =>
      apply on_proceed
      simp only [on_bind, on_pair, on_assignPair, continueOn_ok, wordOf_toNat]
  | stackPointerFromHL =>
      apply on_proceed
      simp only [on_bind, on_pair, on_assignPair, continueOn_ok, wordOf_toNat]
      rfl
  | exchangeStackTop =>
      apply on_proceed
      simp only [on_bind, on_pair, on_register, on_readCell, on_writeCell, on_setRegister,
        continueOn_ok, byteOf_toNat, emod_word_add_one, Machine.writeWord_hl, Machine.top,
        Machine.readWord, Machine.setPair_hl_joinBytes]
      rfl
  | push named =>
      apply on_proceed
      simp only [on_bind, on_pair, on_push, continueOn_ok, wordOf_toNat]
  | pop named =>
      apply on_proceed
      simp only [on_bind, on_pull, on_setPair, continueOn_ok, wordOf_toNat]
  | accumulate operation operand =>
      cases operand with
      | immediate =>
          simp only [ofOperation, Operation.execute]
          cases given : context.immediate with
          | none => exact on_proceed_of_missing given
          | some value =>
              rw [on_proceed_of_reads (on_value given)]
              exact on_accumulate operation value.toNat
      | location location =>
          rw [ofOperation, on_proceed_of_reads (on_readLocation machine location)]
          exact on_accumulate operation (machine.readLocation location).toNat
  | increment location => exact on_count location Arithmetic.increment
  | decrement location => exact on_count location Arithmetic.decrement
  | incrementPair named =>
      apply on_proceed
      simp only [on_bind, on_pair, on_setPair, continueOn_ok, wordOf_add_one]
  | decrementPair named =>
      apply on_proceed
      simp only [on_bind, on_pair, on_setPair, continueOn_ok, wordOf_sub_one]
  | addPair named =>
      apply on_proceed
      simp only [on_bind, on_pair, on_assignPair, on_setStatus, continueOn_ok, wordOf_toNat,
        byteOf_toNat]
      rfl
  | decimalAdjust =>
      apply on_ifModelled
      apply on_proceed
      simp only [on_bind, on_register, continueOn_ok, on_setResult]
      rfl
  | rotate rotation =>
      apply on_proceed
      simp only [on_bind, on_register, on_carry, continueOn_ok, on_setResult]
      rfl
  | complement =>
      apply on_proceed
      simp only [on_bind, on_register, on_setRegister, continueOn_ok, byteOf_lnot, byteOf_toNat]
      rfl
  | complementCarry =>
      apply on_proceed
      simp only [on_bind, on_register, on_setRegister, continueOn_ok, byteOf_xor, byteOf_toNat]
      rfl
  | setCarry =>
      apply on_proceed
      simp only [on_bind, on_register, on_setRegister, continueOn_ok, byteOf_lor, byteOf_toNat]
      rfl
  | jump condition => exact on_onCondition condition rfl
  | call condition =>
      apply on_onCondition condition
      simp only [on_bind, on_push, continueOn_ok, on_pure, wordOf_following]
      rfl
  | ret condition =>
      apply on_onCondition condition
      simp only [on_bind, on_pull, continueOn_ok, on_pure]
      rfl
  | restart number =>
      simp only [ofOperation, on_bind, on_push, continueOn_ok, on_pure, wordOf_following]
      rfl
  | jumpToHL =>
      simp only [ofOperation, on_bind, on_pair, continueOn_ok, on_pure]
      rfl
  | input =>
      apply on_withPort
      · intro port
        simp only [on_bind, on_readPort, on_setRegister, continueOn_ok, byteOf_toNat]
        rfl
      · intro port outside
        simp only [on_bind, readPort, on_checkPort_outside outside, continueOn_error]
  | output =>
      apply on_withPort
      · intro port
        rw [on_bind, on_register, continueOn_ok]
        apply on_writePort
        rw [byteOf_toNat]
        rfl
      · intro port outside
        simp only [on_bind, on_register, continueOn_ok, writePort, on_checkPort_outside outside,
          continueOn_error]
  | enableInterrupts => exact on_proceed (on_changeRegisters machine rfl)
  | disableInterrupts => exact on_proceed (on_changeRegisters machine rfl)
  | interruptMask => rfl
  | noOperation => exact on_proceed rfl
  | halt => rfl
  | defective defect => rfl
  | pullThenFail defect =>
      simp only [ofOperation, on_bind, on_pull, continueOn_ok, on_throw]
      rfl
  | pushThenFail defect =>
      simp only [ofOperation, on_bind, on_push, continueOn_ok, on_throw, wordOf_following]
      rfl

end Handler

end Intel8085
