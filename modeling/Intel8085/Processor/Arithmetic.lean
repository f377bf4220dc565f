import Intel8085.Processor.Flags
import Intel8085.Storage.Word

/-!
# Arithmetic with flags

The operations of the arithmetic unit on integers of any size.  A result is reduced to a byte or a
word; the carry of a sum says that it exceeds the largest byte, the carry of a difference that it
is below zero, and the auxiliary carries say the same of the lower four bits.  The logical
operations clear the carry, and of them only the conjunction sets the auxiliary carry.  A rotation
has the carry as its only flag.
-/

set_option autoImplicit false

namespace Intel8085.Arithmetic

structure Result where
  value : UInt8
  flags : Flags
  deriving DecidableEq, Repr

structure WordResult where
  value : UInt16
  carry : Bool
  deriving DecidableEq, Repr

def lowNibble (number : Int) : Int :=
  number % 16

def lowestBit (number : Int) : Bool :=
  number % 2 == 1

def add (a b carry : Int) : Result :=
  let total := a + b + carry
  let value := byteOf total
  { value
    flags := .ofResult value (lowNibble a + lowNibble b + carry > 0x0F) (total > 0xFF) }

/-- `a - b - borrow`, with the borrow as its carry. -/
def subtract (a b borrow : Int) : Result :=
  let total := a - b - borrow
  let value := byteOf total
  { value
    flags := .ofResult value (lowNibble a - lowNibble b - borrow < 0) (total < 0) }

/-- A comparison has the flags of the difference; its value is not meant to be kept. -/
def compare (a b : Int) : Result :=
  subtract a b 0

def increment (number : Int) : Result :=
  add number 1 0

def decrement (number : Int) : Result :=
  subtract number 1 0

def conjunction (a b : Int) : Result :=
  let value := byteOf a &&& byteOf b
  { value, flags := .ofResult value true false }

def exclusiveOr (a b : Int) : Result :=
  let value := byteOf a ^^^ byteOf b
  { value, flags := .ofResult value false false }

def disjunction (a b : Int) : Result :=
  let value := byteOf a ||| byteOf b
  { value, flags := .ofResult value false false }

/-- The bits move up by one; bit 7 goes to the carry and to bit 0. -/
def rotateLeft (number : Int) : Result :=
  let out := lowestBit (number / 128)
  { value := byteOf (number * 2) ||| byteOf out.toInt, flags := .onlyCarry out }

/-- The bits move down by one; bit 0 goes to the carry and to bit 7. -/
def rotateRight (number : Int) : Result :=
  let out := lowestBit number
  { value := byteOf (number / 2) ||| byteOf (out.toInt * 128), flags := .onlyCarry out }

/-- The bits move up by one; bit 7 goes to the carry and the old carry to bit 0. -/
def rotateLeftThroughCarry (number carry : Int) : Result :=
  let out := lowestBit (number / 128)
  { value := byteOf (number * 2) ||| byteOf carry, flags := .onlyCarry out }

/-- The bits move down by one; bit 0 goes to the carry and the old carry to bit 7. -/
def rotateRightThroughCarry (number carry : Int) : Result :=
  let out := lowestBit number
  { value := byteOf (number / 2) ||| byteOf (carry * 128), flags := .onlyCarry out }

def addWords (first second : Int) : WordResult :=
  { value := wordOf (first + second), carry := first + second > 0xFFFF }

/-- The adjustment of a sum of two packed decimal bytes.  Six is added when the lower digit exceeds
nine or the status byte shows an auxiliary carry; then sixty hexadecimal when the upper digit
exceeds nine or the status byte shows a carry.  A carry that was set stays set. -/
def decimalAdjust (number status : Int) : Result :=
  let lowerDigit := lowNibble number
  let adjustsLower := lowerDigit > 9 || lowestBit (status / 16)
  let lowered := if adjustsLower then number + 6 else number
  let adjustsUpper := lowered / 16 > 9 || lowestBit status
  let total := if adjustsUpper then lowered + 0x60 else lowered
  let value := byteOf total
  { value
    flags := .ofResult value (adjustsLower && lowerDigit + 6 > 0x0F) (adjustsUpper || total > 0xFF) }

end Intel8085.Arithmetic
