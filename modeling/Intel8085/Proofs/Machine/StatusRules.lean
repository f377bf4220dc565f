import Intel8085.Proofs.Machine.Endings
import Intel8085.Proofs.Processor.StatusBits

/-!
# What operations do with the status byte

An operation that completes follows one of six rules (`StatusRule`).  Its conditions are those of
the new accumulator, of a comparison or of a byte that was counted; or it touches no bit but the
carry; or it takes the status byte off the stack; or it leaves the status byte alone.  The rule is
a property of the operation and not of the machine (`obeyed_execute`).
-/

set_option autoImplicit false

namespace Intel8085

/-- The byte of an operand, where `immediate` is the byte behind the opcode. -/
def Operand.value (operand : Operand) (immediate : UInt8) (machine : Machine) : UInt8 :=
  match operand with
  | .immediate => immediate
  | .location place => machine.readLocation place

inductive StatusRule where
  | accumulator
  | comparison (operand : Operand)
  | count (operand : Operand)
  | carryOnly
  | popped
  | kept
  deriving DecidableEq, Repr

/-- The rule holds of the machine before an instruction and the machine after it. -/
def StatusRule.Obeyed (rule : StatusRule) (immediate : UInt8) (before after : Machine) : Prop :=
  match rule with
  | .accumulator =>
      before.registers.AgreesAt [1, 3, 5] after.registers ∧
        after.registers.ShowsResult after.registers.a
  | .comparison operand =>
      before.registers.AgreesAt [1, 3, 5] after.registers ∧
        after.registers.a = before.registers.a ∧
        after.registers.ShowsResult (before.registers.a - operand.value immediate before)
  | .count operand =>
      before.registers.AgreesAt [0, 1, 3, 5] after.registers ∧
        after.registers.ShowsResult (operand.value immediate after)
  | .carryOnly => before.registers.AgreesAt [1, 2, 3, 4, 5, 6, 7] after.registers
  | .popped => after.registers.status = before.memory.read before.registers.stackPointer
  | .kept => after.registers.status = before.registers.status

/-! ## Operations and their rules -/

/-- The rule of an operation that writes to a location, unless that is the status byte itself. -/
def Location.ruleUnlessStatus (location : Location) (rule : StatusRule) : Option StatusRule :=
  if location = .register .status then none else some rule

def Pair.ruleUnlessStatus (pair : Pair) (rule : StatusRule) : Option StatusRule :=
  if pair = .statusWord then none else some rule

/-- The rule of an operation.  Only operations of injected patterns, which may name the status byte
as an operand, have none. -/
def Operation.statusRule? : Operation → Option StatusRule
  | .move destination _ => destination.ruleUnlessStatus .kept
  | .moveImmediate destination => destination.ruleUnlessStatus .kept
  | .loadPair pair => pair.ruleUnlessStatus .kept
  | .pop pair => some (if pair = .statusWord then .popped else .kept)
  | .accumulate operation operand =>
      some (if operation = .compare then .comparison operand else .accumulator)
  | .increment location => location.ruleUnlessStatus (.count (.location location))
  | .decrement location => location.ruleUnlessStatus (.count (.location location))
  | .incrementPair pair => pair.ruleUnlessStatus .kept
  | .decrementPair pair => pair.ruleUnlessStatus .kept
  | .addPair _ => some .carryOnly
  | .decimalAdjust => some .accumulator
  | .rotate _ => some .carryOnly
  | .complementCarry => some .carryOnly
  | .setCarry => some .carryOnly
  | _ => some .kept

theorem Location.ruleUnlessStatus_eq_some {location : Location} {rule other : StatusRule}
    (follows : location.ruleUnlessStatus rule = some other) :
    location ≠ .register .status ∧ rule = other := by
  simpa [ruleUnlessStatus] using follows

theorem Pair.ruleUnlessStatus_eq_some {pair : Pair} {rule other : StatusRule}
    (follows : pair.ruleUnlessStatus rule = some other) : pair ≠ .statusWord ∧ rule = other := by
  simpa [ruleUnlessStatus] using follows

/-! ## Results -/

namespace Arithmetic

/-- The sign, the zero and the parity of the flags are those of the value. -/
def Result.IsOwn (result : Result) : Prop :=
  ∃ auxiliaryCarry carry, result.flags = .ofResult result.value auxiliaryCarry carry

theorem isOwn_result (operation : ByteOperation) (accumulator operand carry : Int) :
    (operation.result accumulator operand carry).IsOwn := by
  cases operation <;> exact ⟨_, _, rfl⟩

theorem byteOf_sub (first : UInt8) (second : UInt16) :
    byteOf ((first.toNat : Int) - second.toNat) = first - lowByte second := by
  apply UInt8.toNat_inj.1
  have firstBound := first.toNat_lt
  rw [toNat_byteOf, UInt8.toNat_sub, toNat_lowByte]
  omega

theorem value_compare (first : UInt8) (second : UInt16) :
    (compare first.toNat second.toNat).value = first - lowByte second := by
  rw [← byteOf_sub]
  simp [compare, subtract]

end Arithmetic

/-! ## Machines -/

namespace Machine

def status (machine : Machine) : UInt8 :=
  machine.registers.status

variable (machine : Machine)

theorem status_writeLocation {location : Location} (other : location ≠ .register .status)
    (byte : UInt8) :
    (machine.writeLocation location byte).registers.status = machine.registers.status := by
  cases location with
  | memory => rfl
  | register register => cases register <;> first | rfl | exact absurd rfl other

theorem status_setPair {pair : Pair} (other : pair ≠ .statusWord) (word : UInt16) :
    (machine.setPair pair word).registers.status = machine.registers.status := by
  cases pair <;> first | rfl | exact absurd rfl other

/-- A byte that was written to a location is still there once flags are set. -/
theorem readLocation_setFlags {location : Location} (other : location ≠ .register .status)
    (byte mask : UInt8) (flags : Flags) :
    ((machine.writeLocation location byte).setFlags mask flags).readLocation location = byte := by
  cases location with
  | memory => exact Memory.read_write_same _ _ _
  | register register => cases register <;> first | rfl | exact absurd rfl other

/-- Setting the flags of a mask leaves the other bits of the status byte as they were before. -/
theorem agreesAt_setFlags {positions : List (Fin 8)} (mask : UInt8) {before after : Machine}
    (same : after.registers.status = before.registers.status) (flags : Flags)
    (outside : ∀ position ∈ positions, mask.toNat.testBit position.val = false) :
    before.registers.AgreesAt positions (after.setFlags mask flags).registers := by
  intro position member
  have kept := Registers.agreesAt_replaceStatus after.registers flags.toByte outside position member
  rw [setFlags, kept, Registers.statusBit, same]
  rfl

theorem showsResult_setFlags (mask : UInt8) {result : Arithmetic.Result} (own : result.IsOwn)
    (covers : ∀ position ∈ ([2, 6, 7] : List (Fin 8)), mask.toNat.testBit position = true) :
    (machine.setFlags mask result.flags).registers.ShowsResult result.value := by
  obtain ⟨auxiliaryCarry, carry, flags⟩ := own
  rw [flags]
  exact machine.registers.showsResult_replaceStatus covers result.value auxiliaryCarry carry

end Machine

/-! ## Effects -/

namespace Context

variable (context : Context) (machine : Machine)

/-- A byte operation shows its result, which is the new accumulator; the result of a comparison is
the difference. -/
theorem obeyed_accumulate (operation : ByteOperation) {operand : Operand} {immediate : UInt8}
    {number : Nat} {word : UInt16} (isWord : word.toNat = number)
    (isValue : lowByte word = operand.value immediate machine) :
    (if operation = .compare then StatusRule.comparison operand else .accumulator).Obeyed immediate
      machine (context.accumulate machine operation number).machine := by
  subst isWord
  have own := Arithmetic.isOwn_result operation machine.registers.a.toNat word.toNat
    machine.registers.carry.toInt
  by_cases compares : operation = .compare
  · subst compares
    have shows := machine.showsResult_setFlags Flags.allBits own (by decide)
    have difference := Arithmetic.value_compare machine.registers.a word
    rw [isValue] at difference
    refine ⟨Machine.agreesAt_setFlags Flags.allBits rfl _ (by decide), rfl, ?_⟩
    rw [← difference]
    exact shows
  · have keeps : operation.keepsResult = true := by
      cases operation <;> first | rfl | exact absurd rfl compares
    rw [if_neg compares, accumulate]
    simp only [keeps, if_true]
    exact ⟨Machine.agreesAt_setFlags Flags.allBits rfl _ (by decide),
      Machine.showsResult_setFlags _ Flags.allBits own (by decide)⟩

theorem obeyed_count {location : Location} (other : location ≠ .register .status)
    (immediate : UInt8) {operation : Int → Arithmetic.Result}
    (own : ∀ number, (operation number).IsOwn) :
    (StatusRule.count (.location location)).Obeyed immediate machine
      (context.count machine location operation).machine := by
  have result := own (machine.readLocation location).toNat
  have kept := machine.status_writeLocation other
    (operation (machine.readLocation location).toNat).value
  refine ⟨Machine.agreesAt_setFlags Flags.allBitsButCarry kept _ (by decide), ?_⟩
  rw [Operand.value, count, proceed, Machine.readLocation_setFlags machine other]
  exact Machine.showsResult_setFlags _ Flags.allBitsButCarry result (by decide)

end Context

/-- An operation that completes obeys its rule, where the immediate is the low byte of the word
behind the opcode. -/
theorem obeyed_execute {operation : Operation} {rule : StatusRule} {context : Context}
    {machine : Machine} (follows : operation.statusRule? = some rule)
    (whole : (operation.execute context machine).ending.isWhole = true)
    (noFault : (operation.execute context machine).ending.isFault = false) :
    rule.Obeyed (lowByte context.word) machine (operation.execute context machine).machine := by
  cases operation with
  | move destination source =>
      obtain ⟨other, rfl⟩ := Location.ruleUnlessStatus_eq_some follows
      exact machine.status_writeLocation other _
  | moveImmediate destination =>
      obtain ⟨other, rfl⟩ := Location.ruleUnlessStatus_eq_some follows
      exact context.keeps_withImmediate Machine.status fun value =>
        machine.status_writeLocation other _
  | loadPair pair =>
      obtain ⟨other, rfl⟩ := Pair.ruleUnlessStatus_eq_some follows
      exact context.keeps_withImmediate Machine.status fun value =>
        machine.status_setPair other value
  | pop pair =>
      obtain rfl := Option.some.inj follows
      by_cases isStatus : pair = .statusWord
      · subst isStatus
        exact lowByte_joinBytes _ _
      · rw [if_neg isStatus]
        exact machine.pull.status_setPair isStatus _
  | accumulate byteOperation operand =>
      obtain rfl := Option.some.inj follows
      cases operand with
      | location location =>
          have isValue : lowByte (joinBytes 0 (machine.readLocation location)) =
              machine.readLocation location := lowByte_joinBytes _ _
          refine context.obeyed_accumulate machine byteOperation ?_ isValue
          rw [toNat_joinBytes]
          simp
      | immediate =>
          simp only [Operation.execute, Context.word] at whole ⊢
          cases given : context.immediate with
          | none =>
              rw [given] at whole
              cases whole
          | some word => exact context.obeyed_accumulate machine byteOperation rfl rfl
  | increment location =>
      obtain ⟨other, rfl⟩ := Location.ruleUnlessStatus_eq_some follows
      exact context.obeyed_count machine other _ fun number => ⟨_, _, rfl⟩
  | decrement location =>
      obtain ⟨other, rfl⟩ := Location.ruleUnlessStatus_eq_some follows
      exact context.obeyed_count machine other _ fun number => ⟨_, _, rfl⟩
  | incrementPair pair =>
      obtain ⟨other, rfl⟩ := Pair.ruleUnlessStatus_eq_some follows
      exact machine.status_setPair other _
  | decrementPair pair =>
      obtain ⟨other, rfl⟩ := Pair.ruleUnlessStatus_eq_some follows
      exact machine.status_setPair other _
  | addPair pair =>
      obtain rfl := Option.some.inj follows
      exact Machine.agreesAt_setFlags Flags.carryBit rfl _ (by decide)
  | decimalAdjust =>
      obtain rfl := Option.some.inj follows
      have modelled : context.config.modelsIoAndBcd = true := by
        by_contra unmodelled
        rw [Operation.execute, Context.ifModelled, if_neg unmodelled] at noFault
        cases noFault
      rw [Operation.execute, Context.ifModelled, if_pos modelled]
      exact ⟨Machine.agreesAt_setFlags Flags.allBits rfl _ (by decide),
        Machine.showsResult_setFlags _ Flags.allBits ⟨_, _, rfl⟩ (by decide)⟩
  | rotate rotation =>
      obtain rfl := Option.some.inj follows
      exact Machine.agreesAt_setFlags Flags.carryBit rfl _ (by decide)
  | complementCarry =>
      obtain rfl := Option.some.inj follows
      exact machine.registers.agreesAt_complementCarry (by decide)
  | setCarry =>
      obtain rfl := Option.some.inj follows
      exact machine.registers.agreesAt_setCarry (by decide)
  | loadAccumulator =>
      obtain rfl := Option.some.inj follows
      exact context.keeps_withImmediate Machine.status fun address => rfl
  | storeAccumulator =>
      obtain rfl := Option.some.inj follows
      exact context.keeps_withImmediate Machine.status fun address => rfl
  | loadHL =>
      obtain rfl := Option.some.inj follows
      exact context.keeps_withImmediate Machine.status fun address => rfl
  | storeHL =>
      obtain rfl := Option.some.inj follows
      exact context.keeps_withImmediate Machine.status fun address => rfl
  | jump condition =>
      obtain rfl := Option.some.inj follows
      exact context.keeps_onCondition Machine.status condition rfl
  | call condition =>
      obtain rfl := Option.some.inj follows
      exact context.keeps_onCondition Machine.status condition rfl
  | ret condition =>
      obtain rfl := Option.some.inj follows
      exact context.keeps_onCondition Machine.status condition rfl
  | input =>
      obtain rfl := Option.some.inj follows
      exact context.keeps_withPort Machine.status fun port => rfl
  | output =>
      obtain rfl := Option.some.inj follows
      exact context.keeps_withPort Machine.status fun port => rfl
  | _ =>
      obtain rfl := Option.some.inj follows
      rfl

end Intel8085
