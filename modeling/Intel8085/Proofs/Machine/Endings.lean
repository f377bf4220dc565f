import Intel8085.Proofs.Machine.Faults

/-!
# How operations end

Where an operation without a defect sends control depends on little: it halts, or goes on behind the
instruction, or is a transfer to an address (`ending_execute`).  To look for an immediate, a port or
a condition changes no part of the machine by itself.
-/

set_option autoImplicit false

namespace Intel8085

/-- Where a transfer finds the address that it goes to. -/
inductive Target where
  | immediate
  | stackTop
  | restart (number : Int)
  | pairHL
  deriving DecidableEq, Repr

/-- The address, where `word` is the immediate of the instruction. -/
def Target.address (target : Target) (word : UInt16) (machine : Machine) : Int :=
  match target with
  | .immediate => word.toNat
  | .stackTop => machine.top.toNat
  | .restart number => 8 * number
  | .pairHL => machine.registers.hl.toNat

/-- A transfer to an address, which may have a condition. -/
structure Transfer where
  target : Target
  condition : Option Condition
  deriving DecidableEq, Repr

/-- The address that a transfer goes to, if it has no condition that fails. -/
def Transfer.address? (transfer : Transfer) (word : UInt16) (machine : Machine) : Option Int :=
  if transfer.condition.all fun condition => condition.holdsIn machine.registers.status then
    some (transfer.target.address word machine)
  else none

/-- What an instruction does with control. -/
inductive Control where
  | sequential
  | modelledOnly
  | unmodelled
  | halt
  | transfer (transfer : Transfer)
  deriving DecidableEq, Repr

def Operation.control : Operation → Control
  | .jump condition => .transfer { target := .immediate, condition }
  | .call condition => .transfer { target := .immediate, condition }
  | .ret condition => .transfer { target := .stackTop, condition }
  | .restart number => .transfer { target := .restart number, condition := none }
  | .jumpToHL => .transfer { target := .pairHL, condition := none }
  | .decimalAdjust => .modelledOnly
  | .input => .modelledOnly
  | .output => .modelledOnly
  | .interruptMask => .unmodelled
  | .halt => .halt
  | _ => .sequential

/-- The immediate of the instruction, or zero if it has none. -/
def Context.word (context : Context) : UInt16 :=
  context.immediate.getD 0

/-- The ending that an instruction comes to. -/
def Control.ending (control : Control) (context : Context) (machine : Machine) : Ending :=
  let unsupported := Ending.fault
    (.unsupportedInstruction context.mnemonic (some context.address))
  match control with
  | .sequential => .proceed (some context.following)
  | .modelledOnly =>
      if context.config.modelsIoAndBcd then .proceed (some context.following) else unsupported
  | .unmodelled => unsupported
  | .halt => .halt
  | .transfer goes =>
      .proceed (some ((goes.address? context.word machine).getD context.following))

/-- The operation is one on a port. -/
def Operation.isOnPort : Operation → Bool
  | .input => true
  | .output => true
  | _ => false

namespace Context

variable {context : Context} {machine : Machine}

theorem ending_withImmediate {operation : UInt16 → Machine}
    (whole : (context.withImmediate machine operation).ending.isWhole = true) :
    (context.withImmediate machine operation).ending = .proceed (some context.following) := by
  rw [withImmediate] at whole ⊢
  cases given : context.immediate with
  | none =>
      rw [given] at whole
      exact absurd whole (by simp [Ending.isWhole])
  | some value => rfl

theorem ending_withPort {operation : UInt8 → Machine}
    (whole : (context.withPort machine operation).ending.isWhole = true)
    (narrow : context.word.toNat ≤ 0xFF) :
    (context.withPort machine operation).ending = Control.modelledOnly.ending context machine := by
  have named : Ports.port context.word.toNat = .ok (byteOf context.word.toNat) := by
    rw [Ports.port, if_pos (by omega)]
  rw [withPort, ifModelled] at whole ⊢
  simp only [Control.ending]
  split
  · rename_i modelled
    rw [if_pos modelled] at whole
    cases given : context.immediate with
    | none =>
        rw [given] at whole
        exact absurd whole (by simp [Ending.isWhole])
    | some word =>
        rw [Context.word, given, Option.getD_some] at named
        simp only [named]
        rfl
  · rfl

theorem ending_onCondition (condition : Option Condition) {effect : Effect} (target : Target)
    (reaches : effect.ending = .proceed (some (target.address context.word machine))) :
    (context.onCondition machine condition effect).ending =
      (Control.transfer { target, condition }).ending context machine := by
  rw [onCondition, Control.ending]
  simp only [Transfer.address?]
  split
  · exact reaches
  · rfl

theorem ending_transfer (condition : Option Condition) (after : Machine)
    (whole : (context.onCondition machine condition (context.transfer after)).ending.isWhole =
      true) :
    (context.onCondition machine condition (context.transfer after)).ending =
      (Control.transfer { target := .immediate, condition }).ending context machine := by
  cases given : context.immediate with
  | some word =>
      apply ending_onCondition condition .immediate
      rw [transfer, Context.word, given]
      rfl
  | none =>
      -- without an immediate the operation is whole only where the condition fails
      rw [onCondition, transfer, given] at whole ⊢
      simp only [Control.ending, Transfer.address?]
      split
      · rename_i holds
        rw [if_pos holds] at whole
        cases whole
      · rfl

end Context

/-- An operation without a defect ends as its control says, if a port is named by a byte. -/
theorem ending_execute {operation : Operation} {context : Context} {machine : Machine}
    (whole : (operation.execute context machine).ending.isWhole = true)
    (narrow : operation.isOnPort = true → context.word.toNat ≤ 0xFF) :
    (operation.execute context machine).ending = operation.control.ending context machine := by
  cases operation with
  | moveImmediate destination => exact Context.ending_withImmediate whole
  | loadPair pair => exact Context.ending_withImmediate whole
  | loadAccumulator => exact Context.ending_withImmediate whole
  | storeAccumulator => exact Context.ending_withImmediate whole
  | loadHL => exact Context.ending_withImmediate whole
  | storeHL => exact Context.ending_withImmediate whole
  | accumulate byteOperation operand =>
      cases operand with
      | location location => rfl
      | immediate =>
          simp only [Operation.execute] at whole ⊢
          cases immediate : context.immediate with
          | none =>
              rw [immediate] at whole
              exact absurd whole (by simp [Ending.isWhole])
          | some value => rfl
  | decimalAdjust =>
      simp only [Operation.execute, Context.ifModelled, Operation.control, Control.ending]
      split
      · rfl
      · rfl
  | jump condition => exact Context.ending_transfer condition machine whole
  | call condition => exact Context.ending_transfer condition _ whole
  | ret condition => exact Context.ending_onCondition condition .stackTop rfl
  | restart number =>
      change Ending.proceed (some (number * 8)) = Ending.proceed (some (8 * number))
      rw [Int.mul_comm]
  | input => exact Context.ending_withPort whole (narrow rfl)
  | output => exact Context.ending_withPort whole (narrow rfl)
  | defective defect => cases whole
  | pullThenFail defect => cases whole
  | pushThenFail defect => cases whole
  | _ => rfl

/-! ## Parts that operations keep -/

namespace Context

variable {Part : Type} (part : Machine → Part) (context : Context) {machine : Machine}

/-- A part of the machine that an operation keeps for every immediate is kept without one too. -/
theorem keeps_withImmediate {operation : UInt16 → Machine}
    (keeps : ∀ value, part (operation value) = part machine) :
    part (context.withImmediate machine operation).machine = part machine := by
  rw [withImmediate]
  cases context.immediate with
  | none => rfl
  | some value => exact keeps value

theorem keeps_withPort {operation : UInt8 → Machine}
    (keeps : ∀ port, part (operation port) = part machine) :
    part (context.withPort machine operation).machine = part machine := by
  rw [withPort, ifModelled]
  split
  · cases context.immediate with
    | none => rfl
    | some value =>
        simp only
        cases Ports.port value.toNat with
        | error fault => rfl
        | ok port => exact keeps port
  · rfl

theorem keeps_onCondition (condition : Option Condition) {effect : Effect}
    (keeps : part effect.machine = part machine) :
    part (context.onCondition machine condition effect).machine = part machine := by
  rw [onCondition]
  split
  · exact keeps
  · rfl

end Context

end Intel8085
