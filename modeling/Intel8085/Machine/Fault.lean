import Intel8085.Machine.HostValue
import Intel8085.Text.Hexadecimal

/-!
# Faults

A fault is what the machine reports when an instruction cannot be carried out or when the host asks
for a cell, a register or a bit that does not exist.  Each fault has one wording
(`Fault.message`), which ends with the address of the instruction where the fault knows it.
-/

set_option autoImplicit false

namespace Intel8085

open Intel8085.Text

inductive Fault where
  | unknownOpcode (opcode : Int) (at? : Option UInt16)
  | unsupportedInstruction (mnemonic : String) (at? : Option UInt16)
  | addressOutOfBounds (address : Int)
  | portOutOfBounds (port : Int)
  | invalidRegister (name : HostValue)
  | valueOutOfRange (name : String) (value : Int)
  | flagBitOutOfBounds (position : Int)
  deriving DecidableEq, Repr

namespace Fault

/-- The address of the instruction that failed, where the fault knows it. -/
def programCounter : Fault → Option UInt16
  | .unknownOpcode _ at? => at?
  | .unsupportedInstruction _ at? => at?
  | _ => none

def cause : Fault → String
  | .unknownOpcode opcode _ =>
      if 0 ≤ opcode ∧ opcode ≤ 0xFF then "Unknown opcode $" ++ hexText 2 opcode.toNat
      else "Opcode value " ++ toString opcode ++ " is not a byte"
  | .unsupportedInstruction mnemonic _ => mnemonic ++ " is not yet modeled"
  | .addressOutOfBounds address => "Memory address " ++ markedHex address ++ " outside $0000-$FFFF"
  | .portOutOfBounds port => "I/O port " ++ markedHex port ++ " outside $00-$FF"
  | .invalidRegister name => "Unknown register " ++ name.display
  | .valueOutOfRange name value => name ++ ": value " ++ markedHex value ++ " outside 0-0xffff"
  | .flagBitOutOfBounds position => "Flag bit " ++ toString position ++ " outside 0-7"

def message (fault : Fault) : String :=
  match fault.programCounter with
  | none => fault.cause
  | some address => fault.cause ++ " at $" ++ hexText 4 address.toNat

end Fault

end Intel8085
