import Intel8085.Proofs.Session.ConditionalTransfers

/-!
# One layout of words

Some instructions put a word into memory, and others take one from there: `SHLD` and `LHLD` at an
address that they spell out, `XTHL`, `PUSH`, `POP`, the calls and `RET` at the stack pointer.  All of
them lay it out alike, so whatever one of them has put there, another takes as it was
(`sharesWordLayout`), also where the word lies at the highest address and the lowest one.

What an instruction does is said once for all of them (`step_of_standsBefore`), and a property of the
session behind it follows from what it makes of the machine (`ensures_of_machine`).
-/

set_option autoImplicit false

namespace Intel8085

/-! ## Words of the machine -/

theorem Memory.write_write (memory : Memory) (address : UInt16) (byte other : UInt8) :
    (memory.write address byte).write address other = memory.write address other := by
  apply ext_read
  intro place
  by_cases here : place = address
  · rw [here, read_write_same, read_write_same]
  · simp only [read_write_other _ _ here]

namespace Machine

variable (machine : Machine) (address : UInt16)

theorem readWord_writeWord (word : UInt16) :
    (machine.writeWord address word).readWord address = word := by
  have apart : address ≠ address + 1 := by grind
  rw [readWord, writeWord, Memory.read_write_same, Memory.read_write_other _ _ apart,
    Memory.read_write_same, joinBytes_split]

theorem writeWord_readWord (word : UInt16) :
    (machine.writeWord address word).writeWord address (machine.readWord address) = machine := by
  have apart : address + 1 ≠ address := by grind
  rw [readWord, writeWord, writeWord, lowByte_joinBytes, highByte_joinBytes]
  -- the two writes to the lower cell meet once they pass the one to the upper cell
  simp only [Memory.write_comm _ apart, Memory.write_write, Memory.write_read]

/-- The machine with the program counter at an address. -/
def goTo (programCounter : UInt16) : Machine :=
  { machine with registers := { machine.registers with programCounter } }

section GoTo

variable (programCounter : UInt16)

@[simp] theorem programCounter_goTo :
    (machine.goTo programCounter).registers.programCounter = programCounter := rfl

@[simp] theorem stackPointer_goTo :
    (machine.goTo programCounter).registers.stackPointer = machine.registers.stackPointer := rfl

@[simp] theorem pair_goTo (pair : Pair) :
    (machine.goTo programCounter).registers.pair pair = machine.registers.pair pair := by
  cases pair <;> rfl

@[simp] theorem hl_goTo : (machine.goTo programCounter).registers.hl = machine.registers.hl := rfl

@[simp] theorem memory_goTo : (machine.goTo programCounter).memory = machine.memory := rfl

@[simp] theorem readWord_goTo : (machine.goTo programCounter).readWord address =
    machine.readWord address := rfl

@[simp] theorem top_goTo : (machine.goTo programCounter).top = machine.top := rfl

@[simp] theorem goTo_goTo (earlier : UInt16) :
    (machine.goTo earlier).goTo programCounter = machine.goTo programCounter := rfl

end GoTo

/-- The machine with the pair HL and the word on top of the stack exchanged. -/
def exchanged : Machine :=
  (machine.writeWord machine.registers.stackPointer machine.registers.hl).setPair .hl machine.top

@[simp] theorem exchanged_goTo (programCounter : UInt16) :
    (machine.goTo programCounter).exchanged = machine.exchanged.goTo programCounter := rfl

theorem top_exchanged : machine.exchanged.top = machine.registers.hl :=
  machine.readWord_writeWord _ _

theorem hl_exchanged : machine.exchanged.registers.hl = machine.top :=
  Registers.pair_setPair_same _ .hl machine.top

theorem setPair_hl (word : UInt16) :
    (machine.setPair .hl word).setPair .hl machine.registers.hl = machine := by
  have high : highByte machine.registers.hl = machine.registers.h := highByte_joinBytes _ _
  have low : lowByte machine.registers.hl = machine.registers.l := lowByte_joinBytes _ _
  simp only [setPair, Registers.setPair, high, low]

theorem exchanged_exchanged : machine.exchanged.exchanged = machine := by
  have memory := machine.writeWord_readWord machine.registers.stackPointer machine.registers.hl
  have registers := machine.setPair_hl machine.top
  rw [exchanged, top_exchanged, hl_exchanged]
  calc
    _ = (((machine.writeWord machine.registers.stackPointer machine.registers.hl).writeWord
          machine.registers.stackPointer machine.top).setPair .hl machine.top).setPair .hl
            machine.registers.hl := rfl
    _ = machine := by rw [top, memory, ← top, registers]

end Machine

/-! ## The instructions -/

/-- The instructions that put a word into memory or take one from there, with their operands.  A call
may have a condition. -/
inductive WordInstruction where
  | storeHL (address : UInt16)
  | loadHL (address : UInt16)
  | exchangeStackTop
  | push (pair : Pair)
  | pop (pair : Pair)
  | call (condition : Option Condition) (target : UInt16)
  | restart (number : Fin 8)
  | ret
  deriving DecidableEq, Repr

/-- The name of a pair as an operand. -/
def Pair.token : Pair → String
  | .bc => "B"
  | .de => "D"
  | .hl => "H"
  | .statusWord => "PSW"
  | .stackPointer => "SP"

namespace WordInstruction

def mnemonic : WordInstruction → String
  | .storeHL _ => "SHLD"
  | .loadHL _ => "LHLD"
  | .exchangeStackTop => "XTHL"
  | .push _ => "PUSH"
  | .pop _ => "POP"
  | .call none _ => "CALL"
  | .call (some condition) _ => "C" ++ condition.suffix
  | .restart _ => "RST"
  | .ret => "RET"

def operands : WordInstruction → List String
  | .storeHL _ => [Token.word]
  | .loadHL _ => [Token.word]
  | .push pair => [pair.token]
  | .pop pair => [pair.token]
  | .call _ _ => [Token.word]
  | .restart number => [toString number.val]
  | _ => []

/-- The word that stands behind the opcode, if one does. -/
def word? : WordInstruction → Option UInt16
  | .storeHL address => some address
  | .loadHL address => some address
  | .call _ target => some target
  | _ => none

def length (instruction : WordInstruction) : Nat :=
  if instruction.word?.isSome then 3 else 1

def operation : WordInstruction → Operation
  | .storeHL _ => .storeHL
  | .loadHL _ => .loadHL
  | .exchangeStackTop => .exchangeStackTop
  | .push pair => .push pair
  | .pop pair => .pop pair
  | .call condition _ => .call condition
  | .restart number => .restart number.val
  | .ret => .ret none

/-- No condition of the instruction fails. -/
def Goes (instruction : WordInstruction) (status : UInt8) : Prop :=
  match instruction with
  | .call (some condition) _ => condition.holdsIn status = true
  | _ => True

/-- The instruction pushes a return address. -/
def isCall : WordInstruction → Bool
  | .call _ _ => true
  | .restart _ => true
  | _ => false

/-- The machine once the instruction has been carried out at an address, but for the program
counter. -/
def carriedOut (instruction : WordInstruction) (address : UInt16) (machine : Machine) : Machine :=
  match instruction with
  | .storeHL target => machine.writeWord target machine.registers.hl
  | .loadHL target => machine.setPair .hl (machine.readWord target)
  | .exchangeStackTop => machine.exchanged
  | .push pair => machine.push (machine.registers.pair pair)
  | .pop pair => machine.pull.setPair pair machine.top
  | .ret => machine.pull
  | .call _ _ => machine.push (UInt16.ofNat (address.toNat + instruction.length))
  | .restart _ => machine.push (UInt16.ofNat (address.toNat + instruction.length))

/-- The instruction goes elsewhere than behind itself. -/
def isTransfer : WordInstruction → Bool
  | .ret => true
  | instruction => instruction.isCall

/-- Where the instruction goes, unless it goes on behind itself. -/
def target? (instruction : WordInstruction) (machine : Machine) : Option UInt16 :=
  match instruction with
  | .call _ target => some target
  | .restart number => some (UInt16.ofNat (number.val * 8))
  | .ret => some machine.top
  | _ => none

theorem ofTokens_call (condition : Condition) :
    Operation.ofTokens ("C" ++ condition.suffix) [Token.word] (hasImmediate [Token.word]) =
      .call (some condition) := by
  cases condition <;> decide

theorem operation_eq (instruction : WordInstruction) :
    Operation.ofTokens instruction.mnemonic instruction.operands
      (hasImmediate instruction.operands) = instruction.operation := by
  cases instruction with
  | push pair => cases pair <;> rfl
  | pop pair => cases pair <;> rfl
  | call condition target =>
      cases condition with
      | none => rfl
      | some condition => exact ofTokens_call condition
  | restart number => revert number; decide
  | _ => rfl

theorem length_eq (instruction : WordInstruction) :
    instruction.length = 1 + widthOf instruction.operands := by
  cases instruction with
  | push pair => cases pair <;> rfl
  | pop pair => cases pair <;> rfl
  | restart number => revert number; decide
  | _ => rfl

theorem carriedOut_of_isCall {instruction : WordInstruction} (calls : instruction.isCall = true)
    (address : UInt16) (machine : Machine) :
    instruction.carriedOut address machine =
      machine.push (UInt16.ofNat (address.toNat + instruction.length)) := by
  cases instruction with
  | call condition target => rfl
  | restart number => rfl
  | _ => cases calls

theorem carriedOut_goTo (instruction : WordInstruction) (address programCounter : UInt16)
    (machine : Machine) :
    instruction.carriedOut address (machine.goTo programCounter) =
      (instruction.carriedOut address machine).goTo programCounter := by
  cases instruction with
  | push pair => cases pair <;> rfl
  | pop pair => cases pair <;> rfl
  | _ => rfl

variable {instruction : WordInstruction} {context : Context} {machine : Machine}

/-- What the operation does, from what stands behind the opcode. -/
theorem execute_operation (given : ∀ word, instruction.word? = some word →
      context.immediate = some word)
    (behind : context.following = context.address.toNat + instruction.length)
    (goes : instruction.Goes machine.registers.status) :
    instruction.operation.execute context machine =
      { machine := instruction.carriedOut context.address machine
        ending := .proceed (some (((instruction.target? machine).map fun target =>
          (target.toNat : Int)).getD context.following)) } := by
  cases instruction with
  | storeHL address =>
      simp [operation, Operation.execute, Context.withImmediate, Context.proceed, given address rfl,
        carriedOut, target?]
  | loadHL address =>
      simp [operation, Operation.execute, Context.withImmediate, Context.proceed, given address rfl,
        carriedOut, target?]
  | call condition target =>
      have immediate := given target rfl
      cases condition with
      | none =>
          simp [operation, Operation.execute, Context.onCondition, Context.transfer, immediate,
            behind, carriedOut, target?]
      | some condition =>
          have holds : condition.holdsIn machine.registers.status = true := goes
          simp [operation, Operation.execute, Context.onCondition, Context.transfer, immediate,
            behind, holds, carriedOut, target?]
  | restart number =>
      have small : number.val * 8 < 65536 := by omega
      simp [operation, Operation.execute, behind, carriedOut, target?, Nat.mod_eq_of_lt small]
  | _ => rfl

theorem isSome_target? (instruction : WordInstruction) (machine : Machine) :
    (instruction.target? machine).isSome = instruction.isTransfer := by
  cases instruction <;> rfl

/-- With which reason a step at an address ends: behind the last address of memory there is nothing
to go on with. -/
def stopAt (instruction : WordInstruction) (address : UInt16) : Option StopReason :=
  if instruction.isTransfer || address.toNat + instruction.length < Memory.size then none
  else some .endOfMemory

end WordInstruction

/-! ## Steps -/

namespace Session

variable {config : Config} {session : Session} {instruction : WordInstruction}

/-- The instruction stands at the program counter, with its operands, and memory holds all of it. -/
structure StandsBefore (config : Config) (session : Session) (instruction : WordInstruction) :
    Prop where
  tokens : session.form?.map Form.tokens = some (instruction.mnemonic :: instruction.operands)
  fits : session.programCounter.toNat + instruction.length ≤ Memory.size
  word : ∀ word, instruction.word? = some word →
    session.machine.memory.wordBehind config.operandOrder session.programCounter = word

theorem StandsBefore.immediate (stands : session.StandsBefore config instruction) {form : Form}
    (width : form.width = widthOf instruction.operands) {word : UInt16}
    (isWord : instruction.word? = some word) :
    (session.contextOf config form).immediate = some word := by
  have two : form.width = 2 := by
    have length := instruction.length_eq
    rw [WordInstruction.length, isWord, Option.isSome_some, if_pos rfl] at length
    omega
  rw [contextOf, two, ← stands.word word isWord]
  rfl

theorem StandsBefore.exists_effect (stands : session.StandsBefore config instruction)
    (goes : instruction.Goes session.machine.registers.status) :
    ∃ form, session.form? = some form ∧
      session.behind form = session.programCounter.toNat + instruction.length ∧
      session.effect config form =
        { machine := instruction.carriedOut session.programCounter session.machine
          ending := .proceed (some (((instruction.target? session.machine).map fun target =>
            (target.toNat : Int)).getD (session.behind form))) } := by
  obtain ⟨form, found, tokens⟩ := Option.map_eq_some_iff.1 stands.tokens
  obtain ⟨mnemonic, operands⟩ := List.cons.inj tokens
  have operation : form.operation = instruction.operation := by
    rw [form.operation_eq, mnemonic, operands, instruction.operation_eq]
  have width : form.width = widthOf instruction.operands := by rw [form.width_eq, operands]
  have behind : session.behind form = session.programCounter.toNat + instruction.length := by
    rw [Session.behind, Form.length, width, instruction.length_eq]
  refine ⟨form, found, behind, ?_⟩
  rw [effect, operation]
  exact WordInstruction.execute_operation (fun _ => stands.immediate width) behind goes

theorem noPopOfStackPointer_checked :
    (List.range 256).all (fun opcode => (Standard.formOf opcode).all fun form =>
      form.tokens != ["POP", Pair.token .stackPointer]) = true := by
  decide +kernel

/-- No instruction takes the stack pointer off the stack. -/
theorem not_standsBefore_pop_stackPointer :
    ¬ session.StandsBefore config (.pop .stackPointer) := by
  intro stands
  obtain ⟨form, found, tokens⟩ := Option.map_eq_some_iff.1 stands.tokens
  have checked := OpcodeTable.standard_forall noPopOfStackPointer_checked found
  rw [bne_iff_ne] at checked
  exact checked tokens

/-- What a step makes of an instruction that goes its way. -/
theorem step_of_standsBefore (stands : session.StandsBefore config instruction)
    (goes : instruction.Goes session.machine.registers.status) :
    ∃ after next, session.step { table := .standard, config } =
        (after, .ok (instruction.stopAt session.programCounter)) ∧
      after.machine =
        (instruction.carriedOut session.programCounter session.machine).goTo next ∧
      ∀ target, instruction.target? session.machine = some target → next = target := by
  obtain ⟨form, found, behind, executes⟩ := stands.exists_effect goes
  have fits := stands.fits
  rw [← behind] at fits
  have size : Memory.size = 65536 := rfl
  have transfers := instruction.isSome_target? session.machine
  cases isTarget : instruction.target? session.machine with
  | some target =>
      have below := target.toNat_lt
      rw [isTarget] at executes transfers
      obtain ⟨trace, steps⟩ := step_of_inside found fits executes (by simp; omega)
      have stop : instruction.stopAt session.programCounter = none := by
        simp [WordInstruction.stopAt, ← transfers]
      rw [stop]
      refine ⟨_, wordOf target.toNat, steps, rfl, ?_⟩
      rintro _ ⟨⟩
      exact wordOf_toNat target
  | none =>
      rw [isTarget] at executes transfers
      by_cases inside : session.behind form < Memory.size
      · obtain ⟨trace, steps⟩ := step_of_inside found fits executes (by simp; omega)
        have stop : instruction.stopAt session.programCounter = none := by
          simp [WordInstruction.stopAt, ← behind, inside]
        rw [stop]
        exact ⟨_, wordOf (session.behind form), steps, rfl, by simp⟩
      · obtain ⟨trace, steps⟩ := step_of_beyond found fits executes (by simp; omega)
        have stop : instruction.stopAt session.programCounter = some .endOfMemory := by
          simp [WordInstruction.stopAt, ← behind, inside, ← transfers]
        rw [stop]
        exact ⟨_, _, steps, rfl, by simp⟩

/-! ## What an instruction ensures -/

/-- At whatever address the instruction stands, the step there carries it out, and the address and the
session behind it have a property. -/
def Ensures (config : Config) (session : Session) (instruction : WordInstruction)
    (property : UInt16 → Session → Prop) : Prop :=
  ∀ address, (session.goTo address).StandsBefore config instruction →
    ∃ after, (session.goTo address).step { table := .standard, config } =
        (after, .ok (instruction.stopAt address)) ∧ property address after

/-- Of the session behind an instruction it is enough to know the machine. -/
theorem ensures_of_machine {property : UInt16 → Session → Prop}
    (goes : instruction.Goes session.machine.registers.status)
    (holds : ∀ address (after : Session) next,
      (session.goTo address).StandsBefore config instruction →
      after.machine = (instruction.carriedOut address session.machine).goTo next →
      (∀ target, instruction.target? session.machine = some target → next = target) →
        property address after) :
    session.Ensures config instruction property := by
  intro address stands
  obtain ⟨after, next, steps, machine, target⟩ := step_of_standsBefore stands goes
  have kept : after.machine = (instruction.carriedOut address session.machine).goTo next := by
    have entered : (session.goTo address).machine = session.machine.goTo address := rfl
    have here : (session.goTo address).programCounter = address := rfl
    rw [machine, entered, here, instruction.carriedOut_goTo, Machine.goTo_goTo]
  exact ⟨after, steps, holds address after next stands kept target⟩

section Takers

variable {word : UInt16}

theorem ensures_loadHL {target : UInt16} (stored : session.machine.readWord target = word) :
    session.Ensures config (.loadHL target) fun _ loaded =>
      loaded.machine.registers.hl = word := by
  refine ensures_of_machine trivial ?_
  intro _ loaded _ _ machine _
  rw [machine, Machine.hl_goTo, ← stored]
  exact Registers.pair_setPair_same session.machine.registers .hl _

theorem ensures_pop (pair : Pair) (top : session.machine.top = word) :
    session.Ensures config (.pop pair) fun _ popped =>
      popped.machine.registers.pair pair = word ∧
        popped.machine.registers.stackPointer = session.machine.registers.stackPointer + 2 := by
  refine ensures_of_machine trivial ?_
  intro _ popped _ stands machine _
  rw [machine, Machine.pair_goTo, Machine.stackPointer_goTo, ← top]
  refine ⟨Registers.pair_setPair_same session.machine.pull.registers pair _, ?_⟩
  cases pair with
  | stackPointer => exact absurd stands not_standsBefore_pop_stackPointer
  | _ => rfl

theorem ensures_ret (top : session.machine.top = word) :
    session.Ensures config .ret fun _ returned =>
      returned.programCounter = word ∧
        returned.machine.registers.stackPointer = session.machine.registers.stackPointer + 2 := by
  refine ensures_of_machine trivial ?_
  intro _ returned next _ machine target
  rw [programCounter, machine, ← top]
  exact ⟨target _ rfl, rfl⟩

end Takers

/-- Behind a push the word is on top, and the stack pointer is two below where it was. -/
theorem pushed_of_machine {pushed : Session} {word next : UInt16}
    (machine : pushed.machine = (session.machine.push word).goTo next) :
    pushed.machine.top = word ∧
      pushed.machine.registers.stackPointer + 2 = session.machine.registers.stackPointer := by
  have restored := congrArg Registers.stackPointer (session.machine.registers_pull_push word)
  rw [machine]
  exact ⟨session.machine.top_push word, restored⟩

/-- The two cells on top of the stack are the same in both sessions, and at the same place. -/
structure AgreesOnTop (first second : Session) : Prop where
  stackPointer : second.machine.registers.stackPointer = first.machine.registers.stackPointer
  lower : second.machine.memory.read first.machine.registers.stackPointer =
    first.machine.memory.read first.machine.registers.stackPointer
  upper : second.machine.memory.read (first.machine.registers.stackPointer + 1) =
    first.machine.memory.read (first.machine.registers.stackPointer + 1)

theorem AgreesOnTop.top {first second : Session} (agrees : first.AgreesOnTop second) :
    second.machine.top = first.machine.top := by
  rw [Machine.top, Machine.top, Machine.readWord, Machine.readWord, agrees.stackPointer,
    agrees.lower, agrees.upper]

/-- What one instruction leaves in memory, another takes from there. -/
structure SharesWordLayout (config : Config) (session : Session) : Prop where
  stored : ∀ target, session.Ensures config (.storeHL target) fun _ stored =>
    stored.Ensures config (.loadHL target) fun _ loaded =>
      loaded.machine.registers.hl = session.machine.registers.hl
  exchanged : session.Ensures config .exchangeStackTop fun _ once =>
    once.Ensures config .exchangeStackTop fun _ twice =>
      twice.machine.registers.hl = session.machine.registers.hl ∧
        twice.machine.registers.stackPointer = session.machine.registers.stackPointer ∧
        twice.machine.memory = session.machine.memory
  pushed : ∀ pair, session.Ensures config (.push pair) fun _ pushed =>
    pushed.Ensures config (.loadHL pushed.machine.registers.stackPointer) (fun _ loaded =>
        loaded.machine.registers.hl = session.machine.registers.pair pair) ∧
      ∀ other, pushed.Ensures config (.pop other) fun _ popped =>
        popped.machine.registers.pair other = session.machine.registers.pair pair ∧
          popped.machine.registers.stackPointer = session.machine.registers.stackPointer
  called : ∀ instruction : WordInstruction, instruction.isCall = true →
    instruction.Goes session.machine.registers.status →
      session.Ensures config instruction fun address called =>
        called.Ensures config (.pop .hl) (fun _ popped =>
            popped.machine.registers.hl.toNat = (address.toNat + instruction.length) % 65536 ∧
              popped.machine.registers.stackPointer = session.machine.registers.stackPointer) ∧
          called.Ensures config .ret fun _ returned =>
            returned.programCounter.toNat = (address.toNat + instruction.length) % 65536 ∧
              returned.machine.registers.stackPointer = session.machine.registers.stackPointer
  returned : session.Ensures config .ret fun _ returned =>
    ∀ other : Session, session.AgreesOnTop other →
      other.Ensures config (.pop .hl) fun _ popped =>
        returned.programCounter = popped.machine.registers.hl ∧
          returned.machine.registers.stackPointer = popped.machine.registers.stackPointer

variable (config session)

theorem sharesWordLayout : session.SharesWordLayout config := by
  constructor
  case stored =>
    intro target
    refine ensures_of_machine trivial ?_
    intro _ stored _ _ machine _
    apply ensures_loadHL
    rw [machine]
    exact Machine.readWord_writeWord _ target _
  case exchanged =>
    refine ensures_of_machine trivial ?_
    intro _ once next _ machine _
    refine ensures_of_machine trivial ?_
    intro _ twice _ _ machineAgain _
    have restored : once.machine.exchanged = session.machine.goTo next := by
      rw [machine, WordInstruction.carriedOut, Machine.exchanged_goTo, Machine.exchanged_exchanged]
    rw [machineAgain, WordInstruction.carriedOut, restored]
    exact ⟨rfl, rfl, rfl⟩
  case pushed =>
    intro pair
    refine ensures_of_machine trivial ?_
    intro _ pushed next _ machine _
    obtain ⟨top, restored⟩ := pushed_of_machine machine
    refine ⟨ensures_loadHL top, ?_⟩
    intro other
    rw [← restored]
    exact ensures_pop other top
  case called =>
    intro instruction calls goes
    refine ensures_of_machine goes ?_
    intro address called next _ machine _
    rw [instruction.carriedOut_of_isCall calls] at machine
    obtain ⟨top, restored⟩ := pushed_of_machine machine
    have behind : (UInt16.ofNat (address.toNat + instruction.length)).toNat =
        (address.toNat + instruction.length) % 65536 := UInt16.toNat_ofNat'
    rw [← restored, ← behind]
    simp only [UInt16.toNat_inj]
    exact ⟨ensures_pop .hl top, ensures_ret top⟩
  case returned =>
    refine ensures_of_machine trivial ?_
    intro _ returned next _ machine target
    have goes : returned.programCounter = session.machine.top := by
      rw [programCounter, machine, target _ rfl, Machine.programCounter_goTo]
    have left : returned.machine.registers.stackPointer =
        session.machine.registers.stackPointer + 2 := by
      rw [machine]
      rfl
    -- a return changes no memory, so the other session only has to agree where the word lies
    intro other agrees address stands
    obtain ⟨popped, steps, loads, moves⟩ := ensures_pop .hl agrees.top address stands
    rw [agrees.stackPointer] at moves
    exact ⟨popped, steps, goes.trans loads.symm, left.trans moves.symm⟩

/-- A session before `SHLD` and `LHLD`, both with the last address of memory. -/
def beforeStore : Session :=
  { Session.initial .standard with
    machine := { Machine.initial with
      registers := { Registers.zeroed with h := 0x12, l := 0x34 }
      memory := (((((Memory.blank.write 0 0x22).write 1 0xFF).write 2 0xFF).write 3 0x2A).write 4
        0xFF).write 5 0xFF } }

/-- A session before a call that memory ends with.  At the target stands a return. -/
def beforeLastCall : Session :=
  { Session.initial .standard with
    machine := { Machine.initial with
      registers := { Registers.zeroed with stackPointer := 1, programCounter := 0xFFFD }
      memory := (((Memory.blank.write 0xFFFD 0xCD).write 0xFFFE 0x12).write 0xFFFF 0x34).write
        0x1234 0xC9 } }

theorem sharesWordLayout_of_lastAddresses :
    (∃ stored loaded, beforeStore.step { table := .standard, config := .standard } =
        (stored, .ok none) ∧
      stored.step { table := .standard, config := .standard } = (loaded, .ok none) ∧
      stored.machine.memory.read 0 = 0x12 ∧ loaded.machine.registers.hl = 0x1234) ∧
    ∃ called returned, beforeLastCall.step { table := .standard, config := .standard } =
        (called, .ok none) ∧
      called.step { table := .standard, config := .standard } = (returned, .ok none) ∧
      returned.programCounter = 0 ∧ returned.machine.registers.stackPointer = 1 := by
  constructor
  · have stores := (sharesWordLayout .standard beforeStore).stored 0xFFFF 0
      ⟨by decide, by decide, by rintro _ ⟨⟩; decide⟩
    obtain ⟨stored, steps, loads⟩ := stores
    obtain rfl := congrArg Prod.fst steps
    obtain ⟨loaded, again, restored⟩ := loads 3 ⟨by decide, by decide, by rintro _ ⟨⟩; decide⟩
    exact ⟨_, _, rfl, again, by decide, restored⟩
  · have calls := (sharesWordLayout .standard beforeLastCall).called (.call none 0x1234) rfl
      trivial 0xFFFD ⟨by decide, by decide, by rintro _ ⟨⟩; decide⟩
    obtain ⟨called, steps, _, returns⟩ := calls
    obtain rfl := congrArg Prod.fst steps
    obtain ⟨returned, again, goes, restored⟩ := returns 0x1234
      ⟨by decide, by decide, by rintro _ ⟨⟩⟩
    exact ⟨_, _, rfl, again, UInt16.toNat_inj.1 goes, restored⟩

end Session

end Intel8085
