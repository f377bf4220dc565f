import Intel8085.Text.Blank
import Intel8085.Text.DecimalDigit

/-!
# Reading integers

An integer is written as an optional sign and one or more digits, with blanks allowed around the
whole and single underscores between digits.  The digits may be those of any script.  In base
sixteen the letters count as digits, and `0x` may stand before them, with one underscore behind it.
A number in base ten has at most `longestDecimal` digits, however many of them are zeros; base
sixteen has no such limit.

Of the ASCII characters only the space and the controls from tab to carriage return are blanks here.
-/

set_option autoImplicit false

namespace Intel8085.Text

/-- The most digits that a decimal number is read or written with. -/
def longestDecimal : Nat := 4300

inductive Base where
  | ten
  | sixteen
  deriving DecidableEq, Repr

def Base.size : Base → Nat
  | .ten => 10
  | .sixteen => 16

def isIntegerBlank (character : Char) : Bool :=
  let code := character.toNat
  if code < 0x80 then (0x09 ≤ code && code ≤ 0x0D) || code == 0x20 else isBlank character

def letterDigit? (character : Char) : Option Nat :=
  let code := character.toNat
  if 0x41 ≤ code && code ≤ 0x46 then some (code - 0x37)
  else if 0x61 ≤ code && code ≤ 0x66 then some (code - 0x57)
  else none

def Base.digit? (base : Base) (character : Char) : Option Nat :=
  match base with
  | .ten => decimalDigit? character
  | .sixteen => (decimalDigit? character).or (letterDigit? character)

/-- The digits of a text in which each underscore stands between two digits. -/
def digitsOf? (base : Base) : List Char → Option (List Nat)
  | [] => none
  | [character] => (base.digit? character).map fun digit => [digit]
  | character :: '_' :: rest => do
      let digit ← base.digit? character
      let digits ← digitsOf? base rest
      return digit :: digits
  | character :: rest => do
      let digit ← base.digit? character
      let digits ← digitsOf? base rest
      return digit :: digits

def Base.number (base : Base) (digits : List Nat) : Nat :=
  digits.foldl (fun value digit => value * base.size + digit) 0

/-- The text behind a leading `0x` and an underscore after it.  The zero may be that of any
script. -/
def behindMark : List Char → List Char
  | zero :: letter :: rest =>
      if decimalDigit? zero == some 0 && (letter == 'x' || letter == 'X') then
        match rest with
        | '_' :: digits => digits
        | digits => digits
      else zero :: letter :: rest
  | text => text

def natural? (base : Base) (text : List Char) : Option Nat := do
  let digits ← digitsOf? base (if base = .sixteen then behindMark text else text)
  if base = .ten ∧ longestDecimal < digits.length then none
  else return base.number digits

def trimInteger (text : List Char) : List Char :=
  ((text.dropWhile isIntegerBlank).reverse.dropWhile isIntegerBlank).reverse

def integer? (base : Base) (text : List Char) : Option Int :=
  match trimInteger text with
  | '-' :: rest => (natural? base rest).map fun number => -(number : Int)
  | '+' :: rest => (natural? base rest).map Int.ofNat
  | rest => (natural? base rest).map Int.ofNat

end Intel8085.Text
