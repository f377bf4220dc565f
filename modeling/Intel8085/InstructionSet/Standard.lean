import Intel8085.InstructionSet.Table

/-!
# The instruction set of the 8085

The forms of the processor's own opcodes, read off the fields of an opcode: its upper two bits
choose a quarter of the table, and the two fields of three bits below them a row and an operand.
Ten opcodes have no form.  The timing is that of the data sheet; a transfer on a condition has the
figures of the transfer taken.
-/

set_option autoImplicit false

namespace Intel8085

namespace Standard

def registerTokens : List String :=
  ["B", "C", "D", "E", "H", "L", "M", "A"]

def registerToken (code : Nat) : String :=
  registerTokens[code % 8]?.getD ""

/-- The token of a pair code where the fourth pair is the stack pointer. -/
def pairToken (code : Nat) : String :=
  ["B", "D", "H", "SP"][code % 4]?.getD ""

/-- The token of a pair code where the fourth pair is the accumulator with the status byte. -/
def stackToken (code : Nat) : String :=
  ["B", "D", "H", "PSW"][code % 4]?.getD ""

def conditionLetters (code : Nat) : String :=
  ["NZ", "Z", "NC", "C", "PO", "PE", "P", "M"][code % 8]?.getD ""

def form (mnemonic : String) (operands : List String) (cycles states : Int) : Option Form :=
  some (.ofPattern mnemonic operands cycles states)

/-- A form that takes longer when an operand is in memory. -/
def byteForm (mnemonic : String) (operands : List String) (inMemory : Bool)
    (fast slow : Int × Int) : Option Form :=
  if inMemory then form mnemonic operands slow.1 slow.2 else form mnemonic operands fast.1 fast.2

def namesMemory (code : Nat) : Bool :=
  code % 8 == 6

/-- Moves between registers and memory; the move from memory to memory is the halt. -/
def moveForm (destination source : Nat) : Option Form :=
  if namesMemory destination && namesMemory source then form "HLT" [] 1 5
  else
    byteForm "MOV" [registerToken destination, registerToken source]
      (namesMemory destination || namesMemory source) (1, 4) (2, 7)

def accumulateForm (row source : Nat) : Option Form :=
  let mnemonic := ["ADD", "ADC", "SUB", "SBB", "ANA", "XRA", "ORA", "CMP"][row % 8]?.getD ""
  byteForm mnemonic [registerToken source] (namesMemory source) (1, 4) (2, 7)

def transferForm : (row : Nat) → Option Form
  | 0 => form "STAX" ["B"] 2 7
  | 1 => form "LDAX" ["B"] 2 7
  | 2 => form "STAX" ["D"] 2 7
  | 3 => form "LDAX" ["D"] 2 7
  | 4 => form "SHLD" [Token.word] 5 16
  | 5 => form "LHLD" [Token.word] 5 16
  | 6 => form "STA" [Token.word] 4 13
  | _ => form "LDA" [Token.word] 4 13

def accumulatorForm (row : Nat) : Option Form :=
  form (["RLC", "RRC", "RAL", "RAR", "DAA", "CMA", "STC", "CMC"][row % 8]?.getD "") [] 1 4

/-- The first quarter: data transfer, counting and operations on pairs. -/
def firstQuarter (row column : Nat) : Option Form :=
  match column with
  | 0 =>
      match row with
      | 0 => form "NOP" [] 1 4
      | 4 => form "RIM" [] 1 4
      | 6 => form "SIM" [] 1 4
      | _ => none
  | 1 =>
      if row % 2 = 0 then form "LXI" [pairToken (row / 2), Token.word] 3 10
      else form "DAD" [pairToken (row / 2)] 3 10
  | 2 => transferForm row
  | 3 => form (if row % 2 = 0 then "INX" else "DCX") [pairToken (row / 2)] 1 6
  | 4 => byteForm "INR" [registerToken row] (namesMemory row) (1, 4) (3, 10)
  | 5 => byteForm "DCR" [registerToken row] (namesMemory row) (1, 4) (3, 10)
  | 6 => byteForm "MVI" [registerToken row, Token.byte] (namesMemory row) (2, 7) (3, 10)
  | _ => accumulatorForm row

def returnForm : (row : Nat) → Option Form
  | 1 => form "RET" [] 3 10
  | 3 => none
  | 5 => form "PCHL" [] 1 6
  | 7 => form "SPHL" [] 1 6
  | row => form "POP" [stackToken (row / 2)] 3 10

def controlForm : (row : Nat) → Option Form
  | 0 => form "JMP" [Token.word] 3 10
  | 1 => none
  | 2 => form "OUT" [Token.byte] 3 10
  | 3 => form "IN" [Token.byte] 3 10
  | 4 => form "XTHL" [] 5 16
  | 5 => form "XCHG" [] 1 4
  | 6 => form "DI" [] 1 4
  | _ => form "EI" [] 1 4

def callForm (row : Nat) : Option Form :=
  if row = 1 then form "CALL" [Token.word] 5 18
  else if row % 2 = 0 then form "PUSH" [stackToken (row / 2)] 3 12
  else none

def immediateForm (row : Nat) : Option Form :=
  form (["ADI", "ACI", "SUI", "SBI", "ANI", "XRI", "ORI", "CPI"][row % 8]?.getD "") [Token.byte] 2 7

/-- The last quarter: control transfer, the stack, ports and immediate operations. -/
def lastQuarter (row column : Nat) : Option Form :=
  match column with
  | 0 => form ("R" ++ conditionLetters row) [] 3 12
  | 1 => returnForm row
  | 2 => form ("J" ++ conditionLetters row) [Token.word] 3 10
  | 3 => controlForm row
  | 4 => form ("C" ++ conditionLetters row) [Token.word] 5 18
  | 5 => callForm row
  | 6 => immediateForm row
  | _ => form "RST" [toString (row % 8)] 3 12

def formOf (opcode : Nat) : Option Form :=
  let row := opcode / 8 % 8
  let column := opcode % 8
  match opcode / 64 with
  | 0 => firstQuarter row column
  | 1 => moveForm row column
  | 2 => accumulateForm row column
  | _ => lastQuarter row column

/-- A small number for a signature.  The signatures of the instruction set have different ones. -/
def fingerprint (signature : List String) : Nat :=
  let number := signature.foldl (fun value token =>
    token.toList.foldl (fun inner character => inner * 37 + character.toNat) (value * 37 + 1)) 0
  number % 8192

/-- Below `count` no two indices have the same number, and none has one of the numbers `seen`. -/
def separated (number : Nat → Option Nat) : (count : Nat) → (seen : Nat) → Bool
  | 0, _ => true
  | count + 1, seen =>
      match number count with
      | none => separated number count seen
      | some value => !seen.testBit value && separated number count (seen ||| 2 ^ value)

theorem testBit_of_separated {number : Nat → Option Nat} {count seen : Nat}
    (apart : separated number count seen = true) {index value : Nat} (below : index < count)
    (numbered : number index = some value) : seen.testBit value = false := by
  induction count generalizing seen with
  | zero => omega
  | succ count inductionHypothesis =>
      unfold separated at apart
      by_cases last : index = count
      · subst last
        simp only [numbered, Bool.and_eq_true, Bool.not_eq_true'] at apart
        exact apart.1
      · have inner : index < count := by omega
        cases numberedLast : number count with
        | none =>
            simp only [numberedLast] at apart
            exact inductionHypothesis apart inner
        | some lastValue =>
            simp only [numberedLast, Bool.and_eq_true, Bool.not_eq_true'] at apart
            have clear := inductionHypothesis apart.2 inner
            rw [Nat.testBit_or, Bool.or_eq_false_iff] at clear
            exact clear.1

theorem eq_of_separated {number : Nat → Option Nat} {count seen : Nat}
    (apart : separated number count seen = true) {first second value : Nat}
    (firstBelow : first < count) (secondBelow : second < count)
    (firstNumbered : number first = some value) (secondNumbered : number second = some value) :
    first = second := by
  induction count generalizing seen with
  | zero => omega
  | succ count inductionHypothesis =>
      unfold separated at apart
      cases numberedLast : number count with
      | none =>
          simp only [numberedLast] at apart
          have firstInner : first ≠ count := fun same => by simp [same, numberedLast] at firstNumbered
          have secondInner : second ≠ count := fun same => by
            simp [same, numberedLast] at secondNumbered
          exact inductionHypothesis apart (by omega) (by omega)
      | some lastValue =>
          simp only [numberedLast, Bool.and_eq_true, Bool.not_eq_true'] at apart
          have marked : (seen ||| 2 ^ lastValue).testBit lastValue = true := by simp
          by_cases firstLast : first = count <;> by_cases secondLast : second = count
          · rw [firstLast, secondLast]
          · have same : lastValue = value := by
              rw [firstLast, numberedLast] at firstNumbered
              exact Option.some.inj firstNumbered
            have clear := testBit_of_separated apart.2 (by omega) secondNumbered
            rw [← same, marked] at clear
            exact absurd clear (by decide)
          · have same : lastValue = value := by
              rw [secondLast, numberedLast] at secondNumbered
              exact Option.some.inj secondNumbered
            have clear := testBit_of_separated apart.2 (by omega) firstNumbered
            rw [← same, marked] at clear
            exact absurd clear (by decide)
          · exact inductionHypothesis apart.2 (by omega) (by omega)

def formNumber (opcode : Nat) : Option Nat :=
  (formOf opcode).map fun form => fingerprint form.signature

theorem separated_formNumber : separated formNumber 256 0 = true := by
  decide +kernel

theorem formOf_distinct {first second : Nat} (firstBelow : first < 256) (secondBelow : second < 256)
    {form other : Form} (found : formOf first = some form) (otherFound : formOf second = some other)
    (same : form.signature = other.signature) : first = second := by
  have firstNumbered : formNumber first = some (fingerprint form.signature) := by
    simp [formNumber, found]
  have secondNumbered : formNumber second = some (fingerprint form.signature) := by
    simp [formNumber, otherFound, same]
  exact eq_of_separated separated_formNumber firstBelow secondBelow firstNumbered secondNumbered

end Standard

def OpcodeTable.standard : OpcodeTable where
  forms := .tabulate Standard.formOf 8 0
  distinct := by
    intro first second form other found otherFound same
    have firstBelow := first.toNat_lt
    have secondBelow := second.toNat_lt
    rw [Bank.get_tabulate] at found otherFound
    rw [Nat.zero_add, Nat.mod_eq_of_lt firstBelow] at found
    rw [Nat.zero_add, Nat.mod_eq_of_lt secondBelow] at otherFound
    exact UInt8.toNat_inj.1 (Standard.formOf_distinct firstBelow secondBelow found otherFound same)

end Intel8085
