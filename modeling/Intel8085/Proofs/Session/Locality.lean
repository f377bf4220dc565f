import Intel8085.Proofs.InstructionSet.Accesses
import Intel8085.Proofs.Session.Outcomes

/-!
# Locality of steps

With the standard table, a step touches the bytes of the instruction at the program counter and the
cells that the instruction accesses (`Session.Touches`).  Every other cell of memory stays as it was,
and what stands there makes no difference to the step (`step_isLocal`).  Ports change only by an
output that is modelled.
-/

set_option autoImplicit false

namespace Intel8085

/-- Bytes behind an address, as far as memory reaches, do not depend on other cells. -/
theorem Memory.valueBehind_write {memory : Memory} {order : ByteOrder} {start address : UInt16}
    {width : Nat} (narrow : width ≤ 2) (fits : start.toNat + width < size)
    (outside : ¬ (start.toNat ≤ address.toNat ∧ address.toNat ≤ start.toNat + width))
    (byte : UInt8) :
    (memory.write address byte).valueBehind order start width =
      memory.valueBehind order start width := by
  have whole : size = 65536 := rfl
  have apart : ∀ offset : UInt16, offset.toNat ≤ width → start + offset ≠ address := by
    intro offset inside same
    have position := congrArg UInt16.toNat same
    rw [UInt16.toNat_add] at position
    omega
  obtain rfl | rfl | rfl : width = 0 ∨ width = 1 ∨ width = 2 := by omega
  · rfl
  · rw [valueBehind, read_write_other memory byte (apart 1 (Nat.le_refl 1))]
    rfl
  · rw [valueBehind, wordBehind, read_write_other memory byte (apart 1 (Nat.le_succ 1)),
      read_write_other memory byte (apart 2 (Nat.le_refl 2))]
    rfl

namespace Session

/-- The number of bytes of the instruction at the program counter.  An opcode without a form is a
byte. -/
def instructionLength (session : Session) : Nat :=
  match session.form? with
  | some form => form.length
  | none => 1

/-- The cells that the instruction at the program counter accesses.  One that memory does not hold
whole is not carried out and accesses none. -/
def accessed (config : Config) (session : Session) : List UInt16 :=
  match session.form? with
  | some form =>
      if session.behind form ≤ Memory.size then
        form.access.cells
          (session.machine.memory.wordBehind config.operandOrder session.programCounter)
          session.machine
      else []
  | none => []

/-- The address is one of the footprint of the next step. -/
def Touches (config : Config) (session : Session) (address : UInt16) : Prop :=
  (session.programCounter.toNat ≤ address.toNat ∧
      address.toNat < session.programCounter.toNat + session.instructionLength) ∨
    address ∈ session.accessed config

instance (config : Config) (session : Session) (address : UInt16) :
    Decidable (session.Touches config address) :=
  inferInstanceAs (Decidable (_ ∨ _))

/-- The session with a byte put into a cell of memory. -/
def poke (session : Session) (address : UInt16) (byte : UInt8) : Session :=
  { session with machine := session.machine.poke address byte }

/-- What holds of a step for every cell that it does not touch, and of the ports. -/
structure IsLocal (config : Config) (session : Session) : Prop where
  keeps : ∀ address, ¬ session.Touches config address →
    (session.step { table := .standard, config }).1.machine.memory.read address =
      session.machine.memory.read address
  attempt_poke : ∀ address, ¬ session.Touches config address → ∀ byte,
    (session.poke address byte).attempt { table := .standard, config } =
      ((session.attempt { table := .standard, config }).1.poke address byte,
        (session.attempt { table := .standard, config }).2)
  step_poke : ∀ address, ¬ session.Touches config address → ∀ byte,
    (session.poke address byte).step { table := .standard, config } =
      ((session.step { table := .standard, config }).1.poke address byte,
        (session.step { table := .standard, config }).2)
  ports : ∀ port, (session.step { table := .standard, config }).1.machine.ports.read port ≠
      session.machine.ports.read port →
    ∃ form, session.form? = some form ∧ form.mnemonic = outputMnemonic ∧
      config.modelsIoAndBcd = true ∧
      port = session.machine.memory.read (session.programCounter + 1)

section Poke

variable {config : Config} {session : Session} {form : Form} {address : UInt16} (byte : UInt8)

theorem finish_poke (line : TraceLine) (effect : Effect) :
    (session.poke address byte).finish line (effect.poke address byte) =
      ((session.finish line effect).1.poke address byte, (session.finish line effect).2) := by
  obtain ⟨machine, ending⟩ := effect
  cases ending with
  | proceed next =>
      cases next with
      | none => rfl
      | some next =>
          simp only [finish, Effect.poke]
          split <;> rfl
  | _ => rfl

/-- The opcode is always one of the bytes that a step touches. -/
theorem opcode_poke (outside : ¬ session.Touches config address) :
    (session.poke address byte).opcode = session.opcode := by
  apply Memory.read_write_other
  intro same
  apply outside
  left
  have some : 0 < session.instructionLength := by
    rw [instructionLength]
    split
    · exact Nat.lt_of_lt_of_le Nat.one_pos (Nat.le_add_right 1 _)
    · exact Nat.one_pos
  rw [← same]
  exact ⟨Nat.le_refl _, Nat.lt_add_of_pos_right some⟩

section Whole

variable (found : session.form? = some form) (fits : session.behind form ≤ Memory.size)
  (outside : ¬ session.Touches config address)
include found fits outside

theorem valueBehind_poke :
    (session.poke address byte).machine.memory.valueBehind config.operandOrder
        session.programCounter form.width =
      session.machine.memory.valueBehind config.operandOrder session.programCounter form.width := by
  simp only [Touches, instructionLength, found, not_or, Form.length] at outside
  rw [behind, Form.length] at fits
  apply Memory.valueBehind_write (narrow_of_form found)
  · omega
  · omega

theorem not_mem_cells_of_not_touches :
    address ∉ form.operation.access.cells (session.contextOf config form).word session.machine := by
  simp only [Touches, accessed, found, if_pos fits, not_or] at outside
  rw [Form.access_of_standard found]
  by_cases direct : form.access.isDirect = true
  · rw [word_of_word (Form.width_of_direct found direct)]
    exact outside.2
  · rw [Access.cells_of_other (Bool.eq_false_iff.2 direct) _
      (session.machine.memory.wordBehind config.operandOrder session.programCounter)]
    exact outside.2

theorem fetched_poke :
    (session.poke address byte).fetched config form = session.fetched config form :=
  congrArg (Fetched.mk form) (valueBehind_poke byte found fits outside)

theorem effect_poke :
    (session.poke address byte).effect config form =
      (session.effect config form).poke address byte := by
  have sameContext : (session.poke address byte).contextOf config form =
      session.contextOf config form :=
    congrArg (Context.mk config form.mnemonic session.programCounter (session.behind form))
      (valueBehind_poke byte found fits outside)
  rw [effect, sameContext]
  exact execute_poke form.operation _ _ (not_mem_cells_of_not_touches found fits outside) byte

end Whole

variable (outside : ¬ session.Touches config address)
include outside

theorem attempt_of_poke :
    (session.poke address byte).attempt { table := .standard, config } =
      ((session.attempt { table := .standard, config }).1.poke address byte,
        (session.attempt { table := .standard, config }).2) := by
  have sameOpcode := opcode_poke byte outside
  have sameForm : (session.poke address byte).form? = session.form? := by
    rw [form?, sameOpcode, form?]
  cases found : session.form? with
  | none =>
      have attempts : session.attempt { table := .standard, config } = (session, .fault _) :=
        attempt_of_no_form found
      have pokeAttempts : (session.poke address byte).attempt { table := .standard, config } =
          (session.poke address byte, .fault _) := attempt_of_no_form (sameForm.trans found)
      rw [attempts, pokeAttempts, sameOpcode]
      rfl
  | some form =>
      by_cases fits : session.behind form ≤ Memory.size
      · have attempts := attempt_of_form config found fits
        have pokeAttempts : (session.poke address byte).attempt { table := .standard, config } =
            (session.poke address byte).finish _ _ :=
          attempt_of_form config (sameForm.trans found) fits
        rw [attempts, pokeAttempts, fetched_poke byte found fits outside,
          effect_poke byte found fits outside]
        exact finish_poke byte _ _
      · have cut : Memory.size < session.behind form := Nat.lt_of_not_le fits
        have narrow := narrow_of_form found
        have attempts : session.attempt { table := .standard, config } = (session, .fault _) :=
          attempt_of_cut found narrow cut
        have pokeAttempts : (session.poke address byte).attempt { table := .standard, config } =
            (session.poke address byte, .fault _) :=
          attempt_of_cut (sameForm.trans found) narrow cut
        rw [attempts, pokeAttempts]

theorem step_of_poke :
    (session.poke address byte).step { table := .standard, config } =
      ((session.step { table := .standard, config }).1.poke address byte,
        (session.step { table := .standard, config }).2) := by
  rw [step, attempt_of_poke byte outside, step]
  rcases session.attempt { table := .standard, config } with ⟨after, outcome⟩
  cases outcome <;> rfl

/-- To put a byte where it stands already changes nothing, so the step leaves it there. -/
theorem read_of_step :
    (session.step { table := .standard, config }).1.machine.memory.read address =
      session.machine.memory.read address := by
  have steps := step_of_poke (session.machine.memory.read address) outside
  have same : session.poke address (session.machine.memory.read address) = session := by
    rw [poke, Machine.poke_read]
  rw [same] at steps
  rw [steps]
  exact Memory.read_write_same _ address _

end Poke

/-! ## Ports -/

theorem ports_finish (session : Session) (line : TraceLine) (effect : Effect) :
    (session.finish line effect).1.machine.ports = effect.machine.ports := by
  rw [finish]
  cases effect.ending with
  | proceed next =>
      cases next with
      | none => rfl
      | some next =>
          simp only
          split <;> rfl
  | _ => rfl

theorem ports_step (setup : Setup) (session : Session) :
    (session.step setup).1.machine.ports = (session.attempt setup).1.machine.ports := by
  rw [step]
  rcases session.attempt setup with ⟨after, outcome⟩
  cases outcome <;> rfl

/-- A step leaves the ports as they are, or it is an output that is modelled. -/
theorem ports_attempt (config : Config) (session : Session) :
    (session.attempt { table := .standard, config }).1.machine.ports = session.machine.ports ∨
      ∃ form, session.form? = some form ∧ form.mnemonic = outputMnemonic ∧
        config.modelsIoAndBcd = true ∧
        (session.attempt { table := .standard, config }).1.machine.ports =
          session.machine.ports.write (session.machine.memory.read (session.programCounter + 1))
            session.machine.registers.a := by
  rcases attempt_cases config session with ⟨fault, faults⟩ | ⟨form, found, _, attempts⟩
  · rw [faults]
    exact Or.inl rfl
  · rw [attempts, ports_finish]
    rcases ports_execute form.operation (session.contextOf config form) session.machine with
      kept | ⟨outputs, modelled, written⟩
    · exact Or.inl kept
    · obtain ⟨named, width⟩ := Form.output_of_standard found outputs
      have port : byteOf (session.contextOf config form).word.toNat =
          session.machine.memory.read (session.programCounter + 1) := by
        have zero : (0 : UInt8).toNat = 0 := rfl
        simp only [Context.word, contextOf, Memory.valueBehind, width, Option.getD_some,
          toNat_joinBytes, zero, Nat.zero_mul, Nat.zero_add]
        exact byteOf_toNat _
      rw [port] at written
      exact Or.inr ⟨form, found, named, modelled, written⟩

end Session

theorem Ports.read_write_same (ports : Ports) (port value : UInt8) :
    (ports.write port value).read port = value :=
  Bank.get_set_same ports.values port.toNat value

theorem Ports.read_write_other (ports : Ports) {port other : UInt8} (value : UInt8)
    (distinct : other ≠ port) : (ports.write port value).read other = ports.read other := by
  apply Bank.get_set_other
  have bound := port.toNat_lt
  have otherBound := other.toNat_lt
  have unequal : other.toNat ≠ port.toNat := fun same => distinct (UInt8.toNat_inj.1 same)
  omega

namespace Session

/-- With the standard table every step is local, whatever the configuration and the session. -/
theorem step_isLocal (config : Config) (session : Session) : session.IsLocal config := by
  constructor
  case keeps => exact fun address outside => read_of_step outside
  case attempt_poke => exact fun address outside byte => attempt_of_poke byte outside
  case step_poke => exact fun address outside byte => step_of_poke byte outside
  case ports =>
    intro port changed
    rw [ports_step] at changed
    rcases ports_attempt config session with kept | ⟨form, found, outputs, modelled, written⟩
    · rw [kept] at changed
      exact absurd rfl changed
    · refine ⟨form, found, outputs, modelled, ?_⟩
      by_contra other
      rw [written, Ports.read_write_other _ _ other] at changed
      exact absurd rfl changed

/-- A session that stands before a push, whose word goes to the lowest and the highest address. -/
def beforePush : Session :=
  { Session.initial .standard with
    machine := { Machine.initial with
      registers := { Registers.zeroed with stackPointer := 1 }
      memory := Memory.blank.write 0 0xC5 } }

theorem step_isLocal_of_push :
    beforePush.accessed .standard = [0, 0xFFFF] ∧ ¬ beforePush.Touches .standard 5 ∧
      (beforePush.poke 5 7).step { table := .standard, config := .standard } =
        ((beforePush.step { table := .standard, config := .standard }).1.poke 5 7, .ok none) := by
  have outside : ¬ beforePush.Touches .standard 5 := by decide
  exact ⟨by decide, outside, (step_isLocal .standard beforePush).step_poke 5 outside 7⟩

end Session

end Intel8085
