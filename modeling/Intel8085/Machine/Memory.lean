import Intel8085.Machine.Fault
import Intel8085.Storage.Bank
import Intel8085.Storage.Word

/-!
# Memory

The address space is flat: 65536 bytes, all of them zero at first.  The processor addresses it with
words, which always name a cell.  The host addresses it with integers: an address outside the space
is a fault and never wraps, and an image that does not fit is refused before any of it is stored.
-/

set_option autoImplicit false

namespace Intel8085

abbrev Memory := Bank UInt8 16

namespace Memory

def size : Nat := 65536

def blank : Memory :=
  .filled 0 16

def read (memory : Memory) (address : UInt16) : UInt8 :=
  memory.get address.toNat

def write (memory : Memory) (address : UInt16) (byte : UInt8) : Memory :=
  memory.set address.toNat byte

def address (number : Int) : Except Fault UInt16 :=
  if 0 ≤ number ∧ number ≤ 0xFFFF then .ok (wordOf number) else .error (.addressOutOfBounds number)

def read? (memory : Memory) (number : Int) : Except Fault UInt8 :=
  memory.read <$> address number

def write? (memory : Memory) (number value : Int) : Except Fault Memory := do
  return memory.write (← address number) (byteOf value)

def store (memory : Memory) (base : Nat) : List UInt8 → Memory
  | [] => memory
  | byte :: rest => store (memory.set base byte) (base + 1) rest

/-- The addresses of the first and the last of `length` bytes exist; an empty stretch has only its
first. -/
def checkStretch (start length : Int) : Except Fault UInt16 := do
  let first ← address start
  if length ≠ 0 then
    let _ ← address (start + length - 1)
  return first

/-- Memory with an image stored from an integer address on, if all of it fits. -/
def load (memory : Memory) (image : List UInt8) (base : Int) : Except Fault Memory := do
  let first ← checkStretch base image.length
  return memory.store first.toNat image

def fill (memory : Memory) (byte : UInt8) (count : Nat) (base : Int) : Except Fault Memory := do
  let first ← checkStretch base count
  return memory.store first.toNat (List.replicate count byte)

def snapshot (memory : Memory) (start length : Int) : Except Fault (List UInt8) := do
  let first ← checkStretch start length
  return (memory.toList.drop first.toNat).take length.toNat

theorem read_write_same (memory : Memory) (address : UInt16) (byte : UInt8) :
    (memory.write address byte).read address = byte :=
  Bank.get_set_same memory address.toNat byte

theorem read_write_other (memory : Memory) {address other : UInt16} (byte : UInt8)
    (distinct : other ≠ address) : (memory.write address byte).read other = memory.read other := by
  apply Bank.get_set_other
  have bound := address.toNat_lt
  have otherBound := other.toNat_lt
  have unequal : other.toNat ≠ address.toNat := fun same => distinct (UInt16.toNat_inj.1 same)
  omega

end Memory

end Intel8085
