import Intel8085.Machine.Execution

/-!
# Faults of operations

The only faults that an operation can meet are that the machine does not model it and that there is
no such port, and it looks for them before it changes anything; nor does it move the program counter
(`staysWithin_execute`).  So an operation that ends in a fault has left the registers, the memory and
the ports as they were (`keepsOnFault_execute`).
-/

set_option autoImplicit false

namespace Intel8085

/-- The faults that an instruction can meet, and not only the host. -/
def Fault.isOfInstruction : Fault → Bool
  | .unknownOpcode _ _ => true
  | .unsupportedInstruction _ _ => true
  | .addressOutOfBounds _ => true
  | .portOutOfBounds _ => true
  | _ => false

/-- The ending shows no defect: if the machine goes on, there is an address to go on at. -/
def Ending.isWhole : Ending → Bool
  | .defect _ => false
  | .proceed none => false
  | _ => true

/-- If the effect ends in a fault, the fault is one of an instruction and the machine is as it was. -/
def Effect.KeepsOnFault (effect : Effect) (machine : Machine) : Prop :=
  ∀ fault, effect.ending = .fault fault →
    effect.machine = machine ∧ fault.isOfInstruction = true

/-- The ending is a fault. -/
def Ending.isFault : Ending → Bool
  | .fault _ => true
  | _ => false

/-- The effect leaves the program counter where it was.  If it is a fault, it is that of an operation
that is not modelled or of a port that does not exist, and the machine is as it was. -/
structure Effect.StaysWithin (effect : Effect) (context : Context) (machine : Machine) : Prop where
  counter : effect.machine.registers.programCounter = machine.registers.programCounter
  unchanged : ∀ fault, effect.ending = .fault fault → effect.machine = machine
  faults : ∀ fault, effect.ending = .fault fault →
    fault = .unsupportedInstruction context.mnemonic (some context.address) ∨
      ∃ number, fault = .portOutOfBounds number

theorem programCounter_writeLocation (machine : Machine) (location : Location) (byte : UInt8) :
    (machine.writeLocation location byte).registers.programCounter =
      machine.registers.programCounter := by
  cases location with
  | register register => cases register <;> rfl
  | memory => rfl

theorem programCounter_setPair (machine : Machine) (pair : Pair) (word : UInt16) :
    (machine.setPair pair word).registers.programCounter = machine.registers.programCounter := by
  cases pair <;> rfl

namespace Context

variable (context : Context) (machine : Machine)

theorem staysWithin_of_no_fault {effect : Effect}
    (counter : effect.machine.registers.programCounter = machine.registers.programCounter)
    (noFault : effect.ending.isFault = false) : effect.StaysWithin context machine := by
  have never : ∀ fault, effect.ending ≠ .fault fault := by
    intro fault ends
    rw [ends] at noFault
    exact absurd noFault (by simp [Ending.isFault])
  exact ⟨counter, fun fault ends => absurd ends (never fault),
    fun fault ends => absurd ends (never fault)⟩

theorem staysWithin_proceed {after : Machine}
    (counter : after.registers.programCounter = machine.registers.programCounter) :
    (context.proceed after).StaysWithin context machine :=
  context.staysWithin_of_no_fault machine counter rfl

theorem staysWithin_transfer {after : Machine}
    (counter : after.registers.programCounter = machine.registers.programCounter) :
    (context.transfer after).StaysWithin context machine :=
  context.staysWithin_of_no_fault machine counter rfl

theorem staysWithin_withImmediate {operation : UInt16 → Machine}
    (counter : ∀ value,
      (operation value).registers.programCounter = machine.registers.programCounter) :
    (context.withImmediate machine operation).StaysWithin context machine := by
  rw [withImmediate]
  cases context.immediate with
  | none => exact context.staysWithin_of_no_fault machine rfl rfl
  | some value => exact context.staysWithin_proceed machine (counter value)

theorem staysWithin_unmodelled :
    Effect.StaysWithin
      { machine
        ending := .fault (.unsupportedInstruction context.mnemonic (some context.address)) }
      context machine := by
  refine ⟨rfl, fun _ _ => rfl, ?_⟩
  intro fault ends
  exact Or.inl (Ending.fault.inj ends).symm

theorem staysWithin_ifModelled {effect : Effect} (stays : effect.StaysWithin context machine) :
    (context.ifModelled machine effect).StaysWithin context machine := by
  rw [ifModelled]
  split
  · exact stays
  · exact context.staysWithin_unmodelled machine

theorem staysWithin_withPort {operation : UInt8 → Machine}
    (counter : ∀ port,
      (operation port).registers.programCounter = machine.registers.programCounter) :
    (context.withPort machine operation).StaysWithin context machine := by
  apply context.staysWithin_ifModelled machine
  cases context.immediate with
  | none => exact context.staysWithin_of_no_fault machine rfl rfl
  | some value =>
      simp only [Ports.port]
      split
      · rename_i port named
        exact context.staysWithin_proceed machine (counter port)
      · rename_i fault refused
        split at refused
        · cases refused
        · cases refused
          refine ⟨rfl, fun _ _ => rfl, ?_⟩
          intro other ends
          exact Or.inr ⟨_, (Ending.fault.inj ends).symm⟩

theorem staysWithin_onCondition (condition : Option Condition) {effect : Effect}
    (stays : effect.StaysWithin context machine) :
    (context.onCondition machine condition effect).StaysWithin context machine := by
  rw [onCondition]
  split
  · exact stays
  · exact context.staysWithin_proceed machine rfl

theorem staysWithin_accumulate (operation : ByteOperation) (operand : Int) :
    (context.accumulate machine operation operand).StaysWithin context machine := by
  apply context.staysWithin_proceed machine
  cases operation <;> rfl

theorem staysWithin_count (location : Location) (operation : Int → Arithmetic.Result) :
    (context.count machine location operation).StaysWithin context machine :=
  context.staysWithin_proceed machine (programCounter_writeLocation machine location _)

end Context

/-- Whatever the operation, it leaves the program counter to the session, meets no fault of fetching,
and changes nothing if it meets one of its own. -/
theorem staysWithin_execute (operation : Operation) (context : Context) (machine : Machine) :
    (operation.execute context machine).StaysWithin context machine := by
  cases operation with
  | move destination source =>
      exact context.staysWithin_proceed machine (programCounter_writeLocation machine destination _)
  | moveImmediate destination =>
      exact context.staysWithin_withImmediate machine fun value =>
        programCounter_writeLocation machine destination _
  | loadPair pair =>
      exact context.staysWithin_withImmediate machine fun value =>
        programCounter_setPair machine pair value
  | loadAccumulator => exact context.staysWithin_withImmediate machine fun value => rfl
  | storeAccumulator => exact context.staysWithin_withImmediate machine fun value => rfl
  | loadHL => exact context.staysWithin_withImmediate machine fun value => rfl
  | storeHL => exact context.staysWithin_withImmediate machine fun value => rfl
  | pop pair => exact context.staysWithin_proceed machine (programCounter_setPair _ pair _)
  | accumulate byteOperation operand =>
      cases operand with
      | location location => exact context.staysWithin_accumulate machine byteOperation _
      | immediate =>
          simp only [Operation.execute]
          cases context.immediate with
          | none => exact context.staysWithin_of_no_fault machine rfl rfl
          | some value => exact context.staysWithin_accumulate machine byteOperation _
  | increment location => exact context.staysWithin_count machine location _
  | decrement location => exact context.staysWithin_count machine location _
  | incrementPair pair =>
      exact context.staysWithin_proceed machine (programCounter_setPair machine pair _)
  | decrementPair pair =>
      exact context.staysWithin_proceed machine (programCounter_setPair machine pair _)
  | decimalAdjust =>
      exact context.staysWithin_ifModelled machine (context.staysWithin_proceed machine rfl)
  | jump condition =>
      exact context.staysWithin_onCondition machine condition
        (context.staysWithin_transfer machine rfl)
  | call condition =>
      exact context.staysWithin_onCondition machine condition
        (context.staysWithin_transfer machine rfl)
  | ret condition =>
      apply context.staysWithin_onCondition machine condition
      exact context.staysWithin_of_no_fault machine rfl rfl
  | input => exact context.staysWithin_withPort machine fun port => rfl
  | output => exact context.staysWithin_withPort machine fun port => rfl
  | interruptMask => exact context.staysWithin_unmodelled machine
  | restart number => exact context.staysWithin_of_no_fault machine rfl rfl
  | jumpToHL => exact context.staysWithin_of_no_fault machine rfl rfl
  | halt => exact context.staysWithin_of_no_fault machine rfl rfl
  | defective defect => exact context.staysWithin_of_no_fault machine rfl rfl
  | pullThenFail defect => exact context.staysWithin_of_no_fault machine rfl rfl
  | pushThenFail defect => exact context.staysWithin_of_no_fault machine rfl rfl
  | _ => exact context.staysWithin_proceed machine rfl

/-- An operation that ends in a fault has changed nothing. -/
theorem keepsOnFault_execute (operation : Operation) (context : Context) (machine : Machine) :
    (operation.execute context machine).KeepsOnFault machine := by
  have stays := staysWithin_execute operation context machine
  intro fault ends
  refine ⟨stays.unchanged fault ends, ?_⟩
  rcases stays.faults fault ends with rfl | ⟨number, rfl⟩
  · rfl
  · rfl

end Intel8085
