/-!
# Condition flags

Five conditions follow an arithmetic result: sign, zero, auxiliary carry, parity and carry.  They
stand in bits 7, 6, 4, 2 and 0 of the status byte; bits 5, 3 and 1 belong to no condition.  An
instruction replaces some of the conditions and leaves every other bit of the status byte alone
(`replaceBits`).
-/

set_option autoImplicit false

namespace Intel8085

structure Flags where
  sign : Bool
  zero : Bool
  auxiliaryCarry : Bool
  parity : Bool
  carry : Bool
  deriving DecidableEq, Repr

namespace Flags

def signBit : UInt8 := 0x80

def zeroBit : UInt8 := 0x40

def auxiliaryCarryBit : UInt8 := 0x10

def parityBit : UInt8 := 0x04

def carryBit : UInt8 := 0x01

def allBits : UInt8 :=
  signBit ||| zeroBit ||| auxiliaryCarryBit ||| parityBit ||| carryBit

def allBitsButCarry : UInt8 :=
  signBit ||| zeroBit ||| auxiliaryCarryBit ||| parityBit

def evenParity (byte : UInt8) : Bool :=
  (List.range 8).countP (fun position => byte.toNat.testBit position) % 2 == 0

/-- The conditions of a result byte together with its two carries. -/
def ofResult (result : UInt8) (auxiliaryCarry carry : Bool) : Flags where
  sign := 0x80 ≤ result.toNat
  zero := result == 0
  auxiliaryCarry := auxiliaryCarry
  parity := evenParity result
  carry := carry

def onlyCarry (carry : Bool) : Flags where
  sign := false
  zero := false
  auxiliaryCarry := false
  parity := false
  carry := carry

def toByte (flags : Flags) : UInt8 :=
  (if flags.sign then signBit else 0) ||| (if flags.zero then zeroBit else 0) |||
    (if flags.auxiliaryCarry then auxiliaryCarryBit else 0) |||
    (if flags.parity then parityBit else 0) ||| (if flags.carry then carryBit else 0)

def holds (bit status : UInt8) : Bool :=
  status &&& bit != 0

/-- The status byte with the bits of a mask taken from another byte. -/
def replaceBits (mask status source : UInt8) : UInt8 :=
  (status &&& ~~~mask) ||| (source &&& mask)

end Flags

end Intel8085
