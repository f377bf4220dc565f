import Intel8085.Numbers

/-!
# Hexadecimal numbers

`hexDigits width number` writes the last `width` digits of a number and `hexNumber` as many digits
as the number needs, but at least a given count.  Digits beyond nine are capital letters.  A digit
written has the number as its value (`hexDigitValue?_hexDigit`).
-/

set_option autoImplicit false

namespace Intel8085.Text

def hexDigit (number : Nat) : Char :=
  Char.ofNat (if number < 10 then 48 + number else 55 + number)

/-- The last `width` hexadecimal digits of a number. -/
def hexDigits : (width : Nat) → Nat → List Char
  | 0, _ => []
  | width + 1, number => hexDigits width (number / 16) ++ [hexDigit (number % 16)]

def hexLength (number : Nat) : Nat :=
  number.log2 / 4 + 1

/-- A number in hexadecimal, filled up with zeros to at least `width` digits. -/
def hexNumber (width number : Nat) : List Char :=
  hexDigits (max width (hexLength number)) number

/-- An integer in hexadecimal, filled up with zeros behind its sign to `width` characters. -/
def hexInteger (width : Nat) : Int → List Char
  | .ofNat number => hexNumber width number
  | .negSucc below => '-' :: hexNumber (width - 1) (below + 1)

def hexText (width number : Nat) : String :=
  String.ofList (hexNumber width number)

def hexByte (byte : UInt8) : String :=
  String.ofList (hexDigits 2 byte.toNat)

/-- An integer in small hexadecimal digits after `0x`, with its sign in front of both. -/
def markedHex (number : Int) : String :=
  let sign := if number < 0 then "-" else ""
  let digits := (hexNumber 1 number.natAbs).map Char.toLower
  sign ++ "0x" ++ String.ofList digits

theorem length_hexDigits (width number : Nat) : (hexDigits width number).length = width := by
  induction width generalizing number with
  | zero => rfl
  | succ width inductionHypothesis => simp [hexDigits, inductionHypothesis]

def hexDigitValue? (character : Char) : Option Nat :=
  let code := character.toNat
  if 48 ≤ code && code ≤ 57 then some (code - 48)
  else if 65 ≤ code && code ≤ 70 then some (code - 55)
  else none

theorem hexDigitValue?_hexDigit {number : Nat} (small : number < 16) :
    hexDigitValue? (hexDigit number) = some number := by
  have allDigits : ∀ digit : Fin 16, hexDigitValue? (hexDigit digit) = some digit.val := by decide
  exact allDigits ⟨number, small⟩

theorem lt_sixteen_pow_hexLength (number : Nat) : number < 16 ^ hexLength number := by
  have bound : number < 2 ^ (number.log2 + 1) := Nat.lt_log2_self
  have wider : 2 ^ (number.log2 + 1) ≤ 2 ^ (4 * hexLength number) := by
    apply Nat.pow_le_pow_right (by decide)
    unfold hexLength
    omega
  calc number < 2 ^ (number.log2 + 1) := bound
    _ ≤ 2 ^ (4 * hexLength number) := wider
    _ = 16 ^ hexLength number := by rw [Nat.pow_mul]

end Intel8085.Text
