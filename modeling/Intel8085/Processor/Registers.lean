import Intel8085.Processor.Flags
import Intel8085.Storage.Word
import Intel8085.Text.Hexadecimal

/-!
# The register file

Seven byte registers and the status byte lie in eight slots, numbered by the register codes of the
opcodes; code 6, which names the memory operand there, is the slot of the status byte.  Registers
combine into pairs, and the stack pointer and the program counter are words of their own.

Reading after writing gives what was written in the slot or pair itself (`read_write_same`,
`pair_setPair_same`) and the earlier byte in every other slot (`read_write_other`).
-/

set_option autoImplicit false

namespace Intel8085

open Intel8085.Text

inductive Register where
  | b | c | d | e | h | l | status | a
  deriving DecidableEq, Repr

inductive Pair where
  | bc | de | hl | statusWord | stackPointer
  deriving DecidableEq, Repr

/-- Every slot, in the order of the register codes. -/
def Register.all : List Register :=
  [.b, .c, .d, .e, .h, .l, .status, .a]

/-- The slot with a number, counted from the first slot or, below zero, from behind the last. -/
def Register.ofSlot? (slot : Int) : Option Register :=
  if slot < 0 then
    if slot < -8 then none else Register.all[(slot + 8).toNat]?
  else Register.all[slot.toNat]?

structure Registers where
  b : UInt8
  c : UInt8
  d : UInt8
  e : UInt8
  h : UInt8
  l : UInt8
  status : UInt8
  a : UInt8
  stackPointer : UInt16
  programCounter : UInt16
  interruptsEnabled : Bool
  deriving DecidableEq, Repr

namespace Registers

def zeroed : Registers where
  b := 0
  c := 0
  d := 0
  e := 0
  h := 0
  l := 0
  status := 0
  a := 0
  stackPointer := 0
  programCounter := 0
  interruptsEnabled := false

def read (registers : Registers) : Register → UInt8
  | .b => registers.b
  | .c => registers.c
  | .d => registers.d
  | .e => registers.e
  | .h => registers.h
  | .l => registers.l
  | .status => registers.status
  | .a => registers.a

def write (registers : Registers) (register : Register) (byte : UInt8) : Registers :=
  match register with
  | .b => { registers with b := byte }
  | .c => { registers with c := byte }
  | .d => { registers with d := byte }
  | .e => { registers with e := byte }
  | .h => { registers with h := byte }
  | .l => { registers with l := byte }
  | .status => { registers with status := byte }
  | .a => { registers with a := byte }

def pair (registers : Registers) : Pair → UInt16
  | .bc => joinBytes registers.b registers.c
  | .de => joinBytes registers.d registers.e
  | .hl => joinBytes registers.h registers.l
  | .statusWord => joinBytes registers.a registers.status
  | .stackPointer => registers.stackPointer

def setPair (registers : Registers) (pair : Pair) (word : UInt16) : Registers :=
  match pair with
  | .bc => { registers with b := highByte word, c := lowByte word }
  | .de => { registers with d := highByte word, e := lowByte word }
  | .hl => { registers with h := highByte word, l := lowByte word }
  | .statusWord => { registers with a := highByte word, status := lowByte word }
  | .stackPointer => { registers with stackPointer := word }

def hl (registers : Registers) : UInt16 :=
  registers.pair .hl

def carry (registers : Registers) : Bool :=
  Flags.holds Flags.carryBit registers.status

def replaceStatus (registers : Registers) (mask source : UInt8) : Registers :=
  { registers with status := Flags.replaceBits mask registers.status source }

def setStatusBit (registers : Registers) (position : Fin 8) (value : Bool) : Registers :=
  let bit := UInt8.ofNat (2 ^ position.val)
  { registers with
    status := if value then registers.status ||| bit else registers.status &&& ~~~bit }

def statusBit (registers : Registers) (position : Fin 8) : Bool :=
  registers.status.toNat.testBit position

/-- The letters of the status bits from bit 7 down, with a dash for a bit that is no condition. -/
def statusLetters : List (Nat × Char) :=
  [(7, 'S'), (6, 'Z'), (5, '-'), (4, 'A'), (3, '-'), (2, 'P'), (1, '-'), (0, 'C')]

/-- The status byte as letters, with a point for each bit that is clear. -/
def statusText (registers : Registers) : String :=
  String.ofList <| statusLetters.map fun (position, letter) =>
    if registers.status.toNat.testBit position then letter else '.'

def display (registers : Registers) : String :=
  "PC=" ++ hexText 4 registers.programCounter.toNat ++
    " SP=" ++ hexText 4 registers.stackPointer.toNat ++
    " A=" ++ hexByte registers.a ++
    " BC=" ++ hexText 4 (registers.pair .bc).toNat ++
    " DE=" ++ hexText 4 (registers.pair .de).toNat ++
    " HL=" ++ hexText 4 registers.hl.toNat ++
    " F=" ++ hexByte registers.status ++
    " [" ++ registers.statusText ++ "]"

theorem read_write_same (registers : Registers) (register : Register) (byte : UInt8) :
    (registers.write register byte).read register = byte := by
  cases register <;> rfl

theorem read_write_other (registers : Registers) {register other : Register} (byte : UInt8)
    (distinct : other ≠ register) :
    (registers.write register byte).read other = registers.read other := by
  cases register <;> cases other <;> first | rfl | exact absurd rfl distinct

theorem pair_setPair_same (registers : Registers) (pair : Pair) (word : UInt16) :
    (registers.setPair pair word).pair pair = word := by
  cases pair <;> first | rfl | exact joinBytes_split word

end Registers

end Intel8085
