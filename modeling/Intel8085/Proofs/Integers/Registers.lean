import Intel8085.Processor.Registers
import Mathlib.Data.Int.Bitwise

/-!
# Registers that hold integers

Here the registers hold integers, which have no bounds of their own: a slot is within a byte, and the
stack pointer and the program counter are within a word, only because every assignment cuts the value
to size first.  Each assignment cuts in its own way (`set`, `setHalves`, `setPair`, `replaceStatus`),
and with registers that hold the values of bytes and words it does what the registers of the processor
do (`get_integers`, `set_integers`, `pair_integers`, `assignPair_integers`).
-/

set_option autoImplicit false

namespace Intel8085

/-! ## Bytes and words of integers -/

theorem natCast_byteOf (number : Int) : ((byteOf number).toNat : Int) = number % 256 := by
  rw [toNat_byteOf]
  omega

theorem natCast_wordOf (number : Int) : ((wordOf number).toNat : Int) = number % 65536 := by
  rw [toNat_wordOf]
  omega

theorem byteOf_emod (number : Int) : byteOf (number % 256) = byteOf number := by
  rw [← natCast_byteOf, byteOf_toNat]

theorem wordOf_emod (number : Int) : wordOf (number % 65536) = wordOf number := by
  rw [← natCast_wordOf, wordOf_toNat]

theorem highByte_wordOf (number : Int) : highByte (wordOf number) = byteOf (number / 256) := by
  apply UInt8.toNat_inj.1
  rw [toNat_highByte, toNat_wordOf, toNat_byteOf]
  omega

theorem lowByte_wordOf (number : Int) : lowByte (wordOf number) = byteOf number := by
  apply UInt8.toNat_inj.1
  rw [toNat_lowByte, toNat_wordOf, toNat_byteOf]
  omega

/-- A byte has the bits of the integer below the eighth, whatever the sign. -/
theorem testBit_byteOf (number : Int) (position : Nat) :
    (byteOf number).toNat.testBit position =
      (decide (position < 8) && number.testBit position) := by
  rw [toNat_byteOf]
  cases number with
  | ofNat natural =>
      have low : ((Int.ofNat natural) % 256).toNat = natural % 2 ^ 8 := by
        rw [Int.ofNat_eq_natCast]
        omega
      rw [low, Nat.testBit_mod_two_pow]
      rfl
  | negSucc natural =>
      have low : ((Int.negSucc natural) % 256).toNat = 2 ^ 8 - (natural % 2 ^ 8 + 1) := by omega
      have bound : natural % 2 ^ 8 < 2 ^ 8 := Nat.mod_lt _ (by decide)
      rw [low, Nat.testBit_two_pow_sub_succ bound, Nat.testBit_mod_two_pow]
      by_cases below : position < 8
      · simp [below, Int.testBit]
      · simp [below]

theorem byte_eq_of_testBit {first second : UInt8}
    (agree : ∀ position < 8, first.toNat.testBit position = second.toNat.testBit position) :
    first = second := by
  apply UInt8.toNat_inj.1
  apply Nat.eq_of_testBit_eq
  intro position
  by_cases below : position < 8
  · exact agree position below
  · have beyond : 2 ^ 8 ≤ 2 ^ position := Nat.pow_le_pow_right (by decide) (by omega)
    have firstBound := first.toNat_lt
    have secondBound := second.toNat_lt
    rw [Nat.testBit_lt_two_pow (by omega), Nat.testBit_lt_two_pow (by omega)]

theorem byteOf_land (first second : Int) :
    byteOf (first.land second) = byteOf first &&& byteOf second := by
  apply byte_eq_of_testBit
  intro position below
  rw [testBit_byteOf, UInt8.toNat_and, Nat.testBit_and, testBit_byteOf, testBit_byteOf,
    Int.testBit_land]
  simp [below]

theorem byteOf_lor (first second : Int) :
    byteOf (first.lor second) = byteOf first ||| byteOf second := by
  apply byte_eq_of_testBit
  intro position below
  rw [testBit_byteOf, UInt8.toNat_or, Nat.testBit_or, testBit_byteOf, testBit_byteOf,
    Int.testBit_lor]
  simp [below]

theorem byteOf_xor (first second : Int) :
    byteOf (first.xor second) = byteOf first ^^^ byteOf second := by
  apply byte_eq_of_testBit
  intro position below
  rw [testBit_byteOf, UInt8.toNat_xor, Nat.testBit_xor, testBit_byteOf, testBit_byteOf,
    Int.testBit_lxor]
  simp [below]

theorem byteOf_lnot (number : Int) : byteOf number.lnot = ~~~byteOf number := by
  apply byte_eq_of_testBit
  intro position below
  have complement : (~~~byteOf number).toNat = 2 ^ 8 - ((byteOf number).toNat + 1) := by
    rw [UInt8.toNat_not]
    simp only [UInt8.size]
    omega
  rw [complement, Nat.testBit_two_pow_sub_succ (byteOf number).toNat_lt, testBit_byteOf,
    testBit_byteOf, Int.testBit_lnot]
  simp [below]

/-! ## The register file -/

/-- The number of the slot of a register. -/
def Register.slot : Register → Nat
  | .b => 0
  | .c => 1
  | .d => 2
  | .e => 3
  | .h => 4
  | .l => 5
  | .status => 6
  | .a => 7

/-- The registers with integers in the slots of the file, in the stack pointer and in the program
counter. -/
structure IntegerRegisters where
  file : List Int
  stackPointer : Int
  programCounter : Int
  interruptsEnabled : Bool

namespace IntegerRegisters

def zeroed : IntegerRegisters where
  file := List.replicate 8 0
  stackPointer := 0
  programCounter := 0
  interruptsEnabled := false

def get (registers : IntegerRegisters) (register : Register) : Int :=
  registers.file.getD register.slot 0

/-- An assignment to a byte register keeps the lowest eight bits. -/
def set (registers : IntegerRegisters) (register : Register) (value : Int) : IntegerRegisters :=
  { registers with file := registers.file.set register.slot (value % 256) }

def setStackPointer (registers : IntegerRegisters) (value : Int) : IntegerRegisters :=
  { registers with stackPointer := value % 65536 }

def setProgramCounter (registers : IntegerRegisters) (value : Int) : IntegerRegisters :=
  { registers with programCounter := value % 65536 }

/-- The word of two integers, of each of which the lowest eight bits count. -/
def join (high low : Int) : Int :=
  high % 256 * 256 + low % 256

/-- A word in two slots: the eight bits above the lowest eight in the one, the lowest eight in the
other. -/
def setHalves (registers : IntegerRegisters) (high low : Register) (value : Int) :
    IntegerRegisters :=
  { registers with
    file := (registers.file.set high.slot (value / 256 % 256)).set low.slot (value % 256) }

def pair (registers : IntegerRegisters) : Pair → Int
  | .bc => join (registers.get .b) (registers.get .c)
  | .de => join (registers.get .d) (registers.get .e)
  | .hl => join (registers.get .h) (registers.get .l)
  | .statusWord => join (registers.get .a) (registers.get .status)
  | .stackPointer => registers.stackPointer

/-- An assignment to a pair as a part of the file. -/
def assignPair (registers : IntegerRegisters) (pair : Pair) (value : Int) : IntegerRegisters :=
  match pair with
  | .bc => registers.setHalves .b .c value
  | .de => registers.setHalves .d .e value
  | .hl => registers.setHalves .h .l value
  | .statusWord => registers.setHalves .a .status value
  | .stackPointer => registers.setStackPointer value

/-- An assignment to a pair by its name, where the value is cut to a word before it is assigned. -/
def setPair (registers : IntegerRegisters) (pair : Pair) (value : Int) : IntegerRegisters :=
  registers.assignPair pair (value % 65536)

/-- The bits of a mask come from flags and the others stay; the complement of a mask is below
zero. -/
def replaceStatus (registers : IntegerRegisters) (mask flags : Int) : IntegerRegisters :=
  registers.set .status (((registers.get .status).land mask.lnot).lor (flags.land mask))

def setStatusBit (registers : IntegerRegisters) (position : Nat) (value : Bool) :
    IntegerRegisters :=
  let status := registers.get .status
  let bit : Int := 2 ^ position
  registers.set .status (if value then status.lor bit else status.land bit.lnot)

def holds (registers : IntegerRegisters) (bit : Int) : Bool :=
  (registers.get .status).land bit != 0

end IntegerRegisters

/-! ## The values of registers -/

namespace Registers

/-- What the registers hold, as integers. -/
def integers (registers : Registers) : IntegerRegisters where
  file := Register.all.map fun register => ((registers.read register).toNat : Int)
  stackPointer := registers.stackPointer.toNat
  programCounter := registers.programCounter.toNat
  interruptsEnabled := registers.interruptsEnabled

variable (registers : Registers)

theorem zeroed_integers : zeroed.integers = .zeroed :=
  rfl

theorem get_integers (register : Register) :
    registers.integers.get register = (registers.read register).toNat := by
  cases register <;> rfl

theorem set_integers (register : Register) (value : Int) :
    registers.integers.set register value = (registers.write register (byteOf value)).integers := by
  rw [IntegerRegisters.set, ← natCast_byteOf]
  cases register <;> rfl

theorem setStackPointer_integers (value : Int) :
    registers.integers.setStackPointer value =
      (registers.setPair .stackPointer (wordOf value)).integers := by
  rw [IntegerRegisters.setStackPointer, ← natCast_wordOf]
  rfl

theorem setProgramCounter_integers (value : Int) :
    registers.integers.setProgramCounter value =
      { registers with programCounter := wordOf value }.integers := by
  rw [IntegerRegisters.setProgramCounter, ← natCast_wordOf]
  rfl

theorem join_toNat (high low : UInt8) :
    IntegerRegisters.join high.toNat low.toNat = (joinBytes high low).toNat := by
  have highBound := high.toNat_lt
  have lowBound := low.toNat_lt
  rw [IntegerRegisters.join, toNat_joinBytes]
  omega

theorem pair_integers (pair : Pair) :
    registers.integers.pair pair = (registers.pair pair).toNat := by
  cases pair
  case stackPointer => rfl
  all_goals
    simp only [IntegerRegisters.pair, get_integers, join_toNat]
    rfl

theorem setHalves_integers (high low : Register) (value : Int) :
    registers.integers.setHalves high low value =
      ((registers.write high (byteOf (value / 256))).write low (byteOf value)).integers := by
  rw [← set_integers, ← set_integers]
  rfl

theorem assignPair_integers (pair : Pair) (value : Int) :
    registers.integers.assignPair pair value = (registers.setPair pair (wordOf value)).integers := by
  cases pair
  case stackPointer => exact setStackPointer_integers registers value
  all_goals
    simp only [IntegerRegisters.assignPair, setHalves_integers, setPair, highByte_wordOf,
      lowByte_wordOf]
    rfl

theorem setPair_integers (pair : Pair) (value : Int) :
    registers.integers.setPair pair value = (registers.setPair pair (wordOf value)).integers := by
  rw [IntegerRegisters.setPair, assignPair_integers, wordOf_emod]

theorem replaceStatus_integers (mask : UInt8) (flags : Int) :
    registers.integers.replaceStatus mask.toNat flags =
      (registers.replaceStatus mask (byteOf flags)).integers := by
  rw [IntegerRegisters.replaceStatus, set_integers, get_integers, byteOf_lor, byteOf_land,
    byteOf_land, byteOf_lnot, byteOf_toNat, byteOf_toNat]
  rfl

theorem setStatusBit_integers (position : Fin 8) (value : Bool) :
    registers.integers.setStatusBit position.val value =
      (registers.setStatusBit position value).integers := by
  have bit : byteOf (2 ^ position.val) = UInt8.ofNat (2 ^ position.val) := by
    revert position
    decide
  simp only [IntegerRegisters.setStatusBit, set_integers, get_integers, apply_ite byteOf, byteOf_lor,
    byteOf_land, byteOf_lnot, byteOf_toNat, bit]
  rfl

theorem holds_integers (bit : UInt8) :
    registers.integers.holds bit.toNat = Flags.holds bit registers.status := by
  have common : Int.land (registers.status.toNat : Int) bit.toNat =
      ((registers.status &&& bit).toNat : Int) := by
    rw [UInt8.toNat_and]
    rfl
  rw [IntegerRegisters.holds, get_integers, Flags.holds]
  simp only [read, common]
  rw [Bool.eq_iff_iff, bne_iff_ne, bne_iff_ne, ne_eq, ne_eq, Int.natCast_eq_zero,
    ← UInt8.toNat_inj]
  rfl

end Registers

end Intel8085
