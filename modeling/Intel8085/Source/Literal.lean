import Intel8085.Text.Hexadecimal
import Intel8085.Text.Integer

/-!
# Numbers in source text

A number is written as digits and a letter for its base: `H` for sixteen, `O` for eight, `B` for
two, and none for ten.  Its first character is a decimal digit, so a hexadecimal number that would
begin with a letter has a zero in front of it.  `hexLiteral` writes such numbers and `readLiteral`
reads all four kinds; letters are capitals.
-/

set_option autoImplicit false

namespace Intel8085.Source

open Intel8085.Text

inductive Radix where
  | binary
  | octal
  | decimal
  | hexadecimal
  deriving DecidableEq, Repr

def Radix.size : Radix → Nat
  | .binary => 2
  | .octal => 8
  | .decimal => 10
  | .hexadecimal => 16

def Radix.digit? (radix : Radix) (character : Char) : Option Nat :=
  (hexDigitValue? character).filter fun value => value < radix.size

/-- The base that the last character of a number stands for, when it is no digit of base ten. -/
def Radix.ofSuffix? : Char → Option Radix
  | 'H' => some .hexadecimal
  | 'O' => some .octal
  | 'B' => some .binary
  | _ => none

/-- The number that digits stand for, the first digit weighing most. -/
def Radix.number (radix : Radix) (digits : List Nat) : Nat :=
  digits.foldl (fun value digit => value * radix.size + digit) 0

inductive LiteralReading where
  | number (value : Nat)
  | malformed
  | tooLong
  deriving DecidableEq, Repr

/-- The base of a text and the digits before the letter for it. -/
def splitRadix (text : List Char) : Radix × List Char :=
  match text.getLast?.bind Radix.ofSuffix? with
  | some radix => (radix, text.dropLast)
  | none => (.decimal, text)

def startsWithDigit (text : List Char) : Bool :=
  match text.head? with
  | some first => '0' ≤ first && first ≤ '9'
  | none => false

def readLiteral (text : List Char) : LiteralReading :=
  let (radix, body) := splitRadix text
  if startsWithDigit body then
    match body.mapM radix.digit? with
    | none => .malformed
    | some digits =>
        if radix = .decimal ∧ longestDecimal < digits.length then .tooLong
        else .number (radix.number digits)
  else .malformed

/-- A number in hexadecimal as source text has it, with a zero before a leading letter. -/
def hexLiteral (digits : Nat) (value : Int) : List Char :=
  let text := hexInteger digits value ++ ['H']
  match text.head? with
  | some first => if 'A' ≤ first && first ≤ 'F' then '0' :: text else text
  | none => text

end Intel8085.Source
