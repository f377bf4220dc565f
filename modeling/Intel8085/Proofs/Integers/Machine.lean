import Intel8085.Machine.Execution
import Intel8085.Proofs.Integers.Registers
import Intel8085.Proofs.Machine.Locality
import Intel8085.Proofs.Machine.Stretches

/-!
# A machine that holds integers

Memory and ports are lists of integers here, and the registers are those that hold integers.  A
handler reads and changes this machine and may break off, and then what it has changed stays changed.
An access to a cell or a port is checked, and it fails if there is no such cell or port; what is
written is cut to a byte before it is stored, and an image takes the place of as many cells as it has
bytes.

On a machine that holds the values of bytes and words each of these handlers does what the machine
does (`on_readCell`, `on_writeCell`, `on_loadImage`, `on_push`, `on_pull`).
-/

set_option autoImplicit false

namespace Intel8085

/-! ## Lists of integers -/

/-- What the cells of a bank hold, as integers. -/
def Bank.integers {height : Nat} (bank : Bank UInt8 height) : List Int :=
  bank.toList.map fun byte => (byte.toNat : Int)

section Bank

variable {height : Nat} (bank : Bank UInt8 height) {address : Nat}

theorem Bank.getD_integers (below : address < 2 ^ height) :
    bank.integers.getD address 0 = (bank.get address).toNat := by
  rw [Bank.integers, List.getD_eq_getElem?_getD, List.getElem?_map, Bank.getElem?_toList bank below]
  rfl

theorem Bank.set_integers (below : address < 2 ^ height) (value : Int) :
    bank.integers.set address (value % 256) = (bank.set address (byteOf value)).integers := by
  rw [Bank.integers, Bank.integers, Bank.toList_set bank below, List.map_set, natCast_byteOf]

theorem Bank.filled_integers : (Bank.filled (0 : UInt8) height).integers =
    List.replicate (2 ^ height) 0 := by
  rw [Bank.integers, Bank.toList_filled, List.map_replicate]
  rfl

end Bank

/-- Cells with an image in the place of as many of them. -/
def splice (cells : List Int) (base : Nat) (image : List Int) : List Int :=
  cells.take base ++ image ++ cells.drop (base + image.length)

theorem splice_cons {cells : List Int} {base : Nat} (inside : base < cells.length) (first : Int)
    (rest : List Int) :
    splice cells base (first :: rest) = splice (cells.set base first) (base + 1) rest := by
  have behind : base < base + 1 + rest.length := by omega
  have length : base + (first :: rest).length = base + 1 + rest.length := by
    rw [List.length_cons]
    omega
  rw [splice, splice, length, List.drop_set_of_lt behind, List.take_add_one,
    List.getElem?_set_self inside, List.take_set_of_le (Nat.le_refl base)]
  simp

theorem Memory.splice_integers (memory : Memory) {base : Nat} {image : List UInt8}
    (fits : base + image.length ≤ 65536) :
    splice memory.integers base (image.map fun byte => (byte.toNat : Int)) =
      (memory.store base image).integers := by
  induction image generalizing memory base with
  | nil => simp [splice, store]
  | cons byte rest inductionHypothesis =>
      rw [List.length_cons] at fits
      have inside : base < memory.integers.length := by
        rw [Bank.integers, List.length_map, Bank.length_toList]
        omega
      have stored : memory.integers.set base byte.toNat = (memory.set base byte).integers := by
        rw [Bank.integers, Bank.integers, Bank.toList_set memory (by omega), List.map_set]
      rw [List.map_cons, splice_cons inside, stored, store]
      exact inductionHypothesis (memory.set base byte) (by omega)

/-! ## Handlers -/

structure IntegerMachine where
  registers : IntegerRegisters
  memory : List Int
  ports : List Int

/-- Why a handler does not come to its end: the machine halts, meets a fault, or shows a defect of the
pattern. -/
inductive Exit where
  | halt
  | fault
  | defect

abbrev Handler := ExceptT Exit (StateM IntegerMachine)

/-- What a handler makes of a machine, with its result or the reason for which it broke off. -/
def Handler.on {Value : Type} (handler : Handler Value) (machine : IntegerMachine) :
    Except Exit Value × IntegerMachine :=
  (handler.run.run machine).run

/-- The handler that goes on with a result, unless there is none. -/
def Handler.continueOn {Value Other : Type} (next : Value → Handler Other) :
    Except Exit Value × IntegerMachine → Except Exit Other × IntegerMachine
  | (.ok value, machine) => (next value).on machine
  | (.error exit, machine) => (.error exit, machine)

namespace Handler

section Combination

variable {Value Other : Type} {machine : IntegerMachine}

@[simp] theorem on_bind (handler : Handler Value) (next : Value → Handler Other) :
    on (handler >>= next) machine = continueOn next (handler.on machine) := by
  simp only [on, ExceptT.run_bind, StateT.run_bind, Id.run_bind]
  rcases StateT.run handler.run machine with ⟨exit | value, after⟩ <;> rfl

@[simp] theorem on_pure (value : Value) : on (pure value) machine = (.ok value, machine) :=
  rfl

@[simp] theorem on_throw (exit : Exit) :
    on (throw exit : Handler Value) machine = (.error exit, machine) :=
  rfl

@[simp] theorem continueOn_ok (next : Value → Handler Other) (value : Value) :
    continueOn next (.ok value, machine) = (next value).on machine :=
  rfl

@[simp] theorem continueOn_error (next : Value → Handler Other) (exit : Exit) :
    continueOn next (.error exit, machine) = (.error exit, machine) :=
  rfl

theorem on_reading {read : IntegerMachine → Value} {value : Value} (shows : read machine = value) :
    on (do return read (← get)) machine = (.ok value, machine) := by
  rw [← shows]
  rfl

theorem on_modify {change : IntegerMachine → IntegerMachine} {after : IntegerMachine}
    (changed : change machine = after) : on (modify change) machine = (.ok (), after) := by
  rw [← changed]
  rfl

end Combination

/-! ## Registers, cells and ports -/

def register (register : Register) : Handler Int :=
  return (← get).registers.get register

def pair (pair : Pair) : Handler Int :=
  return (← get).registers.pair pair

def holds (bit : Int) : Handler Bool :=
  return (← get).registers.holds bit

def changeRegisters (change : IntegerRegisters → IntegerRegisters) : Handler Unit :=
  modify fun machine => { machine with registers := change machine.registers }

def setRegister (register : Register) (value : Int) : Handler Unit :=
  changeRegisters fun registers => registers.set register value

/-- An assignment to a pair as a part of the register file. -/
def assignPair (pair : Pair) (value : Int) : Handler Unit :=
  changeRegisters fun registers => registers.assignPair pair value

/-- An assignment to a pair by its name. -/
def setPair (pair : Pair) (value : Int) : Handler Unit :=
  changeRegisters fun registers => registers.setPair pair value

def setStatus (mask flags : Int) : Handler Unit :=
  changeRegisters fun registers => registers.replaceStatus mask flags

def checkCell (address : Int) : Handler Unit :=
  if 0 ≤ address ∧ address < 65536 then return else throw .fault

def readCell (address : Int) : Handler Int := do
  checkCell address
  return (← get).memory.getD address.toNat 0

def writeCell (address value : Int) : Handler Unit := do
  checkCell address
  modify fun machine => { machine with memory := machine.memory.set address.toNat (value % 256) }

/-- The addresses of the first byte and, if there is one, of the last are checked before any byte is
stored. -/
def loadImage (image : List Int) (base : Int) : Handler Unit := do
  checkCell base
  if image ≠ [] then checkCell (base + image.length - 1)
  modify fun machine => { machine with memory := splice machine.memory base.toNat image }

def checkPort (port : Int) : Handler Unit :=
  if 0 ≤ port ∧ port < 256 then return else throw .fault

def readPort (port : Int) : Handler Int := do
  checkPort port
  return (← get).ports.getD port.toNat 0

def writePort (port value : Int) : Handler Unit := do
  checkPort port
  modify fun machine => { machine with ports := machine.ports.set port.toNat (value % 256) }

def readLocation : Location → Handler Int
  | .register named => register named
  | .memory => do readCell (← pair .hl)

def writeLocation (location : Location) (value : Int) : Handler Unit := do
  match location with
  | .register named => setRegister named value
  | .memory => writeCell (← pair .hl) value

/-- The stack pointer goes down by two and around; the high byte lies above the low byte. -/
def push (word : Int) : Handler Unit := do
  assignPair .stackPointer ((← pair .stackPointer) - 2)
  writeCell (((← pair .stackPointer) + 1) % 65536) (word / 256 % 256)
  writeCell (← pair .stackPointer) (word % 256)

def pull : Handler Int := do
  let low ← readCell (← pair .stackPointer)
  let high ← readCell (((← pair .stackPointer) + 1) % 65536)
  assignPair .stackPointer ((← pair .stackPointer) + 2)
  return IntegerRegisters.join high low

end Handler

/-! ## On the values of bytes and words -/

/-- What a machine holds, as integers. -/
def Machine.integers (machine : Machine) : IntegerMachine where
  registers := machine.registers.integers
  memory := machine.memory.integers
  ports := machine.ports.values.integers

theorem emod_word_add_one (word : UInt16) : ((word.toNat : Int) + 1) % 65536 = (word + 1).toNat := by
  have one : (1 : UInt16).toNat = 1 := rfl
  rw [UInt16.toNat_add, one]
  omega

theorem wordOf_sub_two (word : UInt16) : wordOf ((word.toNat : Int) - 2) = word - 2 := by
  have two : (2 : UInt16).toNat = 2 := rfl
  apply UInt16.toNat_inj.1
  rw [toNat_wordOf, UInt16.toNat_sub, two]
  omega

theorem wordOf_add_two (word : UInt16) : wordOf ((word.toNat : Int) + 2) = word + 2 := by
  have two : (2 : UInt16).toNat = 2 := rfl
  apply UInt16.toNat_inj.1
  rw [toNat_wordOf, UInt16.toNat_add, two]
  omega

namespace Handler

variable (machine : Machine)

@[simp] theorem on_register (named : Register) :
    (register named).on machine.integers =
      (.ok (machine.registers.read named).toNat, machine.integers) :=
  on_reading (machine.registers.get_integers named)

@[simp] theorem on_pair (named : Pair) :
    (pair named).on machine.integers =
      (.ok (machine.registers.pair named).toNat, machine.integers) :=
  on_reading (machine.registers.pair_integers named)

@[simp] theorem on_holds (bit : UInt8) :
    (holds bit.toNat).on machine.integers =
      (.ok (Flags.holds bit machine.registers.status), machine.integers) :=
  on_reading (machine.registers.holds_integers bit)

theorem on_changeRegisters {change : IntegerRegisters → IntegerRegisters} {registers : Registers}
    (changed : change machine.registers.integers = registers.integers) :
    (changeRegisters change).on machine.integers =
      (.ok (), { machine with registers }.integers) := by
  apply on_modify
  simp only [Machine.integers, changed]

@[simp] theorem on_setRegister (named : Register) (value : Int) :
    (setRegister named value).on machine.integers = (.ok (), { machine with
      registers := machine.registers.write named (byteOf value) }.integers) :=
  on_changeRegisters machine (machine.registers.set_integers named value)

@[simp] theorem on_assignPair (named : Pair) (value : Int) :
    (assignPair named value).on machine.integers =
      (.ok (), (machine.setPair named (wordOf value)).integers) :=
  on_changeRegisters machine (machine.registers.assignPair_integers named value)

@[simp] theorem on_setPair (named : Pair) (value : Int) :
    (setPair named value).on machine.integers =
      (.ok (), (machine.setPair named (wordOf value)).integers) :=
  on_changeRegisters machine (machine.registers.setPair_integers named value)

@[simp] theorem on_setStatus (mask : UInt8) (flags : Int) :
    (setStatus mask.toNat flags).on machine.integers = (.ok (), { machine with
      registers := machine.registers.replaceStatus mask (byteOf flags) }.integers) :=
  on_changeRegisters machine (machine.registers.replaceStatus_integers mask flags)

theorem on_checkCell (address : UInt16) {state : IntegerMachine} :
    (checkCell address.toNat).on state = (.ok (), state) := by
  have bound := address.toNat_lt
  have inside : 0 ≤ (address.toNat : Int) ∧ (address.toNat : Int) < 65536 := by omega
  rw [checkCell, if_pos inside]
  rfl

theorem on_checkPort (port : UInt8) {state : IntegerMachine} :
    (checkPort port.toNat).on state = (.ok (), state) := by
  rw [checkPort, if_pos (byte_inside port)]
  rfl

@[simp] theorem on_readCell (address : UInt16) :
    (readCell address.toNat).on machine.integers =
      (.ok (machine.memory.read address).toNat, machine.integers) := by
  rw [readCell, on_bind, on_checkCell]
  exact on_reading (Bank.getD_integers machine.memory address.toNat_lt)

@[simp] theorem on_writeCell (address : UInt16) (value : Int) :
    (writeCell address.toNat value).on machine.integers = (.ok (), { machine with
      memory := machine.memory.write address (byteOf value) }.integers) := by
  rw [writeCell, on_bind, on_checkCell]
  apply on_modify
  simp only [Machine.integers, Int.toNat_natCast,
    Bank.set_integers machine.memory address.toNat_lt value]
  rfl

@[simp] theorem on_readPort (port : UInt8) :
    (readPort port.toNat).on machine.integers =
      (.ok (machine.ports.read port).toNat, machine.integers) := by
  rw [readPort, on_bind, on_checkPort]
  exact on_reading (Bank.getD_integers machine.ports.values port.toNat_lt)

/-- A write and a device leave the same byte in a port, whatever the observers are told. -/
theorem on_writePort {port : UInt8} {value : Int} {ports : Ports}
    (written : ports.values = machine.ports.values.set port.toNat (byteOf value)) :
    (writePort port.toNat value).on machine.integers =
      (.ok (), { machine with ports }.integers) := by
  rw [writePort, on_bind, on_checkPort]
  apply on_modify
  simp only [Machine.integers, Int.toNat_natCast, written,
    Bank.set_integers machine.ports.values port.toNat_lt value]

@[simp] theorem on_readLocation (location : Location) :
    (readLocation location).on machine.integers =
      (.ok (machine.readLocation location).toNat, machine.integers) := by
  cases location with
  | register named => exact on_register machine named
  | memory => simp [readLocation, Machine.readLocation, Registers.hl]

@[simp] theorem on_writeLocation (location : Location) (value : Int) :
    (writeLocation location value).on machine.integers =
      (.ok (), (machine.writeLocation location (byteOf value)).integers) := by
  cases location with
  | register named => exact on_setRegister machine named value
  | memory => simp [writeLocation, Machine.writeLocation, Registers.hl]

@[simp] theorem on_push (word : Int) :
    (push word).on machine.integers = (.ok (), (machine.push (wordOf word)).integers) := by
  have apart : ∀ address : UInt16, address + 1 ≠ address := by grind
  simp only [push, on_bind, continueOn_ok, on_pair, on_assignPair, on_writeCell, emod_word_add_one,
    wordOf_sub_two, byteOf_emod]
  rw [Memory.write_comm _ (apart _)]
  simp only [Machine.push, Machine.writeWord, highByte_wordOf, lowByte_wordOf]
  rfl

@[simp] theorem on_pull :
    pull.on machine.integers = (.ok machine.top.toNat, machine.pull.integers) := by
  simp only [pull, on_bind, continueOn_ok, on_pair, on_assignPair, on_readCell, on_pure,
    emod_word_add_one, wordOf_add_two, Registers.join_toNat]
  rfl

theorem on_checkCell_outside {address : Int} (outside : ¬ (0 ≤ address ∧ address < 65536))
    {state : IntegerMachine} : (checkCell address).on state = (.error .fault, state) := by
  rw [checkCell, if_neg outside]
  rfl

theorem on_checkPort_outside {port : Int} (outside : ¬ (0 ≤ port ∧ port < 256))
    {state : IntegerMachine} : (checkPort port).on state = (.error .fault, state) := by
  rw [checkPort, if_neg outside]
  rfl

/-! ## What handlers leave -/

/-- The handler makes the second of the machines of the first, as far as it comes. -/
def Leaves {Value : Type} (handler : Handler Value) (machine after : Machine) : Prop :=
  (handler.on machine.integers).2 = after.integers

section Leaves

variable {machine} {Value : Type}

theorem leaves_of_on {handler : Handler Value} {result : Except Exit Value} {after : Machine}
    (done : handler.on machine.integers = (result, after.integers)) :
    handler.Leaves machine after := by
  rw [Leaves, done]

theorem on_loadImage {first : UInt16} {image : List UInt8}
    (fits : first.toNat + (image.length : Int) ≤ 65536) :
    (loadImage (image.map fun byte => (byte.toNat : Int)) first.toNat).on machine.integers =
      (.ok (), { machine with memory := machine.memory.store first.toNat image }.integers) := by
  have stored := @Memory.splice_integers machine.memory first.toNat image (by omega)
  have changed : ({ machine.integers with
      memory := splice machine.integers.memory first.toNat
        (image.map fun byte => (byte.toNat : Int)) } : IntegerMachine) =
      { machine with memory := machine.memory.store first.toNat image }.integers := by
    simp only [Machine.integers, stored]
  rw [loadImage, on_bind, on_checkCell, continueOn_ok]
  by_cases empty : image = []
  · subst empty
    rw [← changed]
    rfl
  · have positive := List.length_pos_iff.2 empty
    obtain ⟨last, named⟩ : ∃ last : UInt16, first.toNat + (image.length : Int) - 1 = last.toNat :=
      exists_word (by omega)
    have something : image.map (fun byte => (byte.toNat : Int)) ≠ [] := by
      simpa using empty
    rw [if_pos something, on_bind, List.length_map, named, on_checkCell, continueOn_ok]
    exact on_modify changed

theorem leaves_loadImage {image : List UInt8} {base : Int} {memory : Memory}
    (loaded : machine.memory.load image base = .ok memory) :
    (loadImage (image.map fun byte => (byte.toNat : Int)) base).Leaves machine
      { machine with memory } := by
  by_cases inside : 0 ≤ base ∧ base < 65536
  · obtain ⟨first, rfl⟩ := exists_word inside
    by_cases fits : first.toNat + (image.length : Int) ≤ 65536
    · rw [Memory.load, Memory.checkStretch_of_fits (by omega) fits] at loaded
      cases loaded
      exact leaves_of_on (on_loadImage fits)
    · rw [Memory.load, Memory.checkStretch_of_beyond (Int.not_le.1 fits)] at loaded
      cases loaded
  · rw [Memory.load, Memory.checkStretch_of_outside inside] at loaded
    cases loaded

theorem leaves_loadImage_refused {image : List UInt8} {base : Int} {fault : Fault}
    (refused : machine.memory.load image base = .error fault) :
    (loadImage (image.map fun byte => (byte.toNat : Int)) base).Leaves machine machine := by
  by_cases inside : 0 ≤ base ∧ base < 65536
  · obtain ⟨first, rfl⟩ := exists_word inside
    by_cases fits : first.toNat + (image.length : Int) ≤ 65536
    · rw [Memory.load, Memory.checkStretch_of_fits (by omega) fits] at refused
      cases refused
    · have something : image.map (fun byte => (byte.toNat : Int)) ≠ [] := by
        intro nothing
        have empty := congrArg List.length nothing
        have bound := first.toNat_lt
        rw [List.length_map, List.length_nil] at empty
        omega
      rw [Leaves, loadImage, on_bind, on_checkCell, continueOn_ok, if_pos something, on_bind,
        List.length_map, on_checkCell_outside (by omega)]
      rfl
  · rw [Leaves, loadImage, on_bind, on_checkCell_outside inside]
    rfl

end Leaves

end Handler

end Intel8085
