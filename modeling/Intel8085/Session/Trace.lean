import Intel8085.InstructionSet.Form
import Intel8085.Session.Recent

/-!
# Trace lines

A trace line tells of one instruction that was carried out: where it stood, how it reads, and what
the registers held before it.
-/

set_option autoImplicit false

namespace Intel8085

open Intel8085.Text

/-- An instruction with the registers as they were before it. -/
structure TraceLine where
  before : Registers
  mnemonic : String
  operands : List String
  value : Int
  deriving DecidableEq, Repr

namespace TraceLine

def instruction (line : TraceLine) : String :=
  filledText line.mnemonic line.operands line.value

def instructionWidth : Nat := 12

def display (line : TraceLine) : String :=
  let text := line.instruction
  "$" ++ hexText 4 line.before.programCounter.toNat ++ ": " ++ text ++
    String.ofList (List.replicate (instructionWidth - text.length) ' ') ++ " " ++
    line.before.display

end TraceLine

end Intel8085
