import Intel8085.Machine.Execution

/-!
# The stack

The stack grows down through memory, and below the lowest address comes the highest.  A word that
was pushed is on top (`top_push`), and taking it off restores the registers
(`registers_pull_push`).  So as many words as memory can hold come back in reverse, and no cell but
those below the stack pointer has changed (`restores_pullAll_pushAll`).
-/

set_option autoImplicit false

namespace Intel8085

/-- The addresses below a stack pointer, from the nearest on. -/
def cellsBelow (stackPointer : UInt16) (count : Nat) : List UInt16 :=
  (List.range count).map fun distance => stackPointer - UInt16.ofNat (distance + 1)

theorem cellsBelow_succ (stackPointer : UInt16) (count : Nat) :
    cellsBelow stackPointer (count + 1) =
      (stackPointer - 1) :: cellsBelow (stackPointer - 1) count := by
  simp only [cellsBelow, List.range_succ_eq_map, List.map_cons, List.map_map]
  congr 1
  apply List.map_congr_left
  intro distance _
  have split : UInt16.ofNat (distance + 1 + 1) = 1 + UInt16.ofNat (distance + 1) := by
    rw [Nat.add_comm, UInt16.ofNat_add]
    rfl
  change stackPointer - UInt16.ofNat (distance + 1 + 1) =
    stackPointer - 1 - UInt16.ofNat (distance + 1)
  rw [split]
  grind

theorem cellsBelow_add_two (stackPointer : UInt16) (count : Nat) :
    cellsBelow stackPointer (count + 2) =
      (stackPointer - 1) :: (stackPointer - 2) :: cellsBelow (stackPointer - 2) count := by
  have second : stackPointer - 1 - 1 = stackPointer - 2 := by grind
  rw [cellsBelow_succ, cellsBelow_succ, second]

/-- The cells below a stack pointer do not reach around to those above it, as long as there are
fewer than memory has. -/
theorem add_not_mem_cellsBelow {stackPointer offset : UInt16} {count : Nat}
    (inside : offset.toNat + count < 65536) :
    stackPointer + offset ∉ cellsBelow stackPointer count := by
  induction count generalizing stackPointer offset with
  | zero => exact List.not_mem_nil
  | succ count inductionHypothesis =>
      have one : (1 : UInt16).toNat = 1 := rfl
      have position : stackPointer + offset = stackPointer - 1 + (offset + 1) := by grind
      rw [cellsBelow_succ, List.mem_cons, not_or]
      constructor
      · intro same
        have wraps : offset + 1 = 0 := by grind
        have total := congrArg UInt16.toNat wraps
        rw [UInt16.toNat_add, one, UInt16.toNat_zero] at total
        omega
      · rw [position]
        apply inductionHypothesis
        rw [UInt16.toNat_add, one]
        omega

theorem not_mem_cellsBelow {stackPointer : UInt16} {count : Nat} (fewer : count < 65536) :
    stackPointer ∉ cellsBelow stackPointer count := by
  have apart := @add_not_mem_cellsBelow stackPointer 0 count (by simpa using fewer)
  rwa [UInt16.add_zero] at apart

namespace Machine

/-! ## One word -/

section Push

variable (machine : Machine) (word : UInt16)

theorem stackPointer_push :
    (machine.push word).registers.stackPointer = machine.registers.stackPointer - 2 := rfl

theorem registers_pull_push : (machine.push word).pull.registers = machine.registers := by
  have restored : machine.registers.stackPointer - 2 + 2 = machine.registers.stackPointer := by
    grind
  change { machine.registers with stackPointer := machine.registers.stackPointer - 2 + 2 } = _
  rw [restored]

theorem top_push : (machine.push word).top = word := by
  have apart : machine.registers.stackPointer - 2 ≠ machine.registers.stackPointer - 2 + 1 := by
    grind
  simp only [top, readWord, push, writeWord, setStackPointer, Registers.setPair]
  rw [Memory.read_write_same, Memory.read_write_other _ _ apart, Memory.read_write_same,
    joinBytes_split]

/-- A push writes the two cells below the stack pointer. -/
theorem read_push {address : UInt16} (notUpper : address ≠ machine.registers.stackPointer - 1)
    (notLower : address ≠ machine.registers.stackPointer - 2) :
    (machine.push word).memory.read address = machine.memory.read address := by
  have upper : machine.registers.stackPointer - 2 + 1 = machine.registers.stackPointer - 1 := by
    grind
  simp only [push, writeWord, setStackPointer, upper]
  rw [Memory.read_write_other _ _ notUpper, Memory.read_write_other _ _ notLower]

end Push

/-- The word on top depends on the stack pointer and the two cells from there on. -/
theorem top_congr {first second : Machine} (registers : second.registers = first.registers)
    (lower : second.memory.read first.registers.stackPointer =
      first.memory.read first.registers.stackPointer)
    (upper : second.memory.read (first.registers.stackPointer + 1) =
      first.memory.read (first.registers.stackPointer + 1)) :
    second.top = first.top := by
  simp only [top, readWord, registers, lower, upper]

/-! ## Many words -/

def pushAll (machine : Machine) (words : List UInt16) : Machine :=
  words.foldl push machine

/-- Takes so many words off the stack; the topmost is the first. -/
def pullAll : (count : Nat) → Machine → List UInt16 × Machine
  | 0, machine => ([], machine)
  | count + 1, machine =>
      let (words, after) := pullAll count machine.pull
      (machine.top :: words, after)

theorem pullAll_succ (count : Nat) (machine : Machine) :
    pullAll (count + 1) machine =
      ((pullAll count machine).1 ++ [(pullAll count machine).2.top],
        (pullAll count machine).2.pull) := by
  induction count generalizing machine with
  | zero => rfl
  | succ count inductionHypothesis =>
      rw [pullAll, inductionHypothesis]
      rfl

/-- After words were pushed the stack pointer is two lower for each.  Taking off as many gives them
in reverse, and the machine as it was before, but for the cells below its stack pointer. -/
structure Restores (machine : Machine) (words : List UInt16) : Prop where
  pushed : (machine.pushAll words).registers.stackPointer =
    machine.registers.stackPointer - UInt16.ofNat (2 * words.length)
  pulled : (pullAll words.length (machine.pushAll words)).1 = words.reverse
  registers : (pullAll words.length (machine.pushAll words)).2.registers = machine.registers
  ports : (pullAll words.length (machine.pushAll words)).2.ports = machine.ports
  memory : ∀ address ∉ cellsBelow machine.registers.stackPointer (2 * words.length),
    (pullAll words.length (machine.pushAll words)).2.memory.read address =
      machine.memory.read address

theorem restores_cons {machine : Machine} {word : UInt16} {words : List UInt16}
    (fits : words.length + 1 ≤ 32768) (restores : (machine.push word).Restores words) :
    machine.Restores (word :: words) := by
  have double : 2 * (word :: words).length = 2 * words.length + 2 := by
    rw [List.length_cons, Nat.mul_succ]
  have top : (pullAll words.length ((machine.push word).pushAll words)).2.top = word := by
    have one : (1 : UInt16).toNat = 1 := rfl
    have lower := restores.memory _ (not_mem_cellsBelow (by omega))
    have upper := restores.memory _ (add_not_mem_cellsBelow (by omega : (1 : UInt16).toNat + _ < _))
    exact (top_congr restores.registers lower upper).trans (machine.top_push word)
  have pullsAll : pullAll (word :: words).length (machine.pushAll (word :: words)) =
      ((pullAll words.length ((machine.push word).pushAll words)).1 ++ [word],
        (pullAll words.length ((machine.push word).pushAll words)).2.pull) := by
    rw [List.length_cons, pullAll_succ]
    exact congrArg (fun last => (_ ++ [last], _)) top
  constructor
  case pushed =>
    have farther : machine.registers.stackPointer - 2 - UInt16.ofNat (2 * words.length) =
        machine.registers.stackPointer - UInt16.ofNat (2 * words.length + 2) := by
      rw [UInt16.ofNat_add]
      grind
    have pushed := restores.pushed
    rw [stackPointer_push, farther] at pushed
    rw [double]
    exact pushed
  case pulled =>
    rw [pullsAll, restores.pulled, List.reverse_cons]
  case registers =>
    rw [pullsAll, ← machine.registers_pull_push word]
    simp only [pull, setStackPointer, restores.registers]
  case ports =>
    rw [pullsAll]
    exact restores.ports
  case memory =>
    intro address outside
    rw [double, cellsBelow_add_two] at outside
    simp only [List.mem_cons, not_or] at outside
    rw [pullsAll]
    have kept := restores.memory address outside.2.2
    exact kept.trans (machine.read_push word outside.1 outside.2.1)

/-- Words that memory can hold all together come back from the stack, wherever it begins. -/
theorem restores_pullAll_pushAll (machine : Machine) {words : List UInt16}
    (fits : words.length ≤ 32768) : machine.Restores words := by
  induction words generalizing machine with
  | nil =>
      have begins : machine.registers.stackPointer - 0 = machine.registers.stackPointer := by grind
      exact ⟨begins.symm, rfl, rfl, rfl, fun _ _ => rfl⟩
  | cons word words inductionHypothesis =>
      have fewer : words.length ≤ 32768 := Nat.le_of_succ_le fits
      exact restores_cons fits (inductionHypothesis (machine.push word) fewer)

/-- The first of two words lies at the highest and the lowest address. -/
def nearEnd : Machine :=
  Machine.initial.setStackPointer 1

theorem restores_pullAll_pushAll_of_nearEnd :
    (nearEnd.pushAll [0x1234, 0xABCD]).memory.read 0xFFFF = 0x34 ∧
      (nearEnd.pushAll [0x1234, 0xABCD]).registers.stackPointer = 0xFFFD ∧
      (pullAll 2 (nearEnd.pushAll [0x1234, 0xABCD])).1 = [0xABCD, 0x1234] ∧
      nearEnd.Restores [0x1234, 0xABCD] := by
  refine ⟨by decide, by decide, by decide, ?_⟩
  exact restores_pullAll_pushAll nearEnd (by decide)

end Machine

end Intel8085
