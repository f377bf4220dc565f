import Intel8085.Numbers
import Intel8085.Processor.Arithmetic
import Mathlib.Data.Nat.Digits.Defs
import Mathlib.Tactic.LinearCombination

/-!
# Numbers of several bytes

A number of several bytes has its lowest byte first.  A calculation goes from the lowest pair of
bytes to the highest, and the carry bit in the status byte of each result is the carry into the
next.  What the operation does with the digits of one place it does with the whole numbers
(`value_calculate`), so addition and subtraction with the carry are exact for numbers of any length
(`calculate_add_subtract`).
-/

set_option autoImplicit false

namespace Intel8085

theorem Flags.holds_carryBit_toByte (flags : Flags) :
    holds carryBit flags.toByte = flags.carry := by
  obtain ⟨sign, zero, auxiliaryCarry, parity, carry⟩ := flags
  revert sign zero auxiliaryCarry parity carry
  decide

theorem Flags.holds_auxiliaryCarryBit_toByte (flags : Flags) :
    holds auxiliaryCarryBit flags.toByte = flags.auxiliaryCarry := by
  obtain ⟨sign, zero, auxiliaryCarry, parity, carry⟩ := flags
  revert sign zero auxiliaryCarry parity carry
  decide

namespace Arithmetic

/-- The carry bit of the status byte that comes with a result. -/
def Result.carryOut (result : Result) : Bool :=
  Flags.holds Flags.carryBit result.flags.toByte

/-- The auxiliary carry bit of the status byte that comes with a result. -/
def Result.halfCarryOut (result : Result) : Bool :=
  Flags.holds Flags.auxiliaryCarryBit result.flags.toByte

/-- One place of a calculation: the bytes and the carry that go in, and what comes out. -/
structure Place where
  first : UInt8
  second : UInt8
  carryIn : Bool
  result : Result
  deriving DecidableEq, Repr

/-- The places from the lowest on, and the carry out of the highest. -/
structure Calculation where
  places : List Place
  carry : Bool
  deriving DecidableEq, Repr

def Calculation.bytes (calculation : Calculation) : List UInt8 :=
  calculation.places.map fun place => place.result.value

/-- Applies an operation on two bytes and a carry to pairs of bytes, the lowest first. -/
def calculate (operation : Int → Int → Int → Result) :
    (carry : Bool) → List (UInt8 × UInt8) → Calculation
  | carry, [] => { places := [], carry }
  | carry, (first, second) :: rest =>
      let result := operation first.toNat second.toNat carry.toInt
      let higher := calculate operation result.carryOut rest
      { higher with places := { first, second, carryIn := carry, result } :: higher.places }

/-- The number of which bytes are the places, where `digit` is what a byte counts in its place. -/
def placeValue (base : Nat) (digit : UInt8 → Nat) (bytes : List UInt8) : Nat :=
  Nat.ofDigits base (bytes.map digit)

def littleEndian (bytes : List UInt8) : Nat :=
  placeValue 256 UInt8.toNat bytes

theorem placeValue_cons (base : Nat) (digit : UInt8 → Nat) (byte : UInt8) (bytes : List UInt8) :
    placeValue base digit (byte :: bytes) = digit byte + base * placeValue base digit bytes := by
  simp only [placeValue, List.map_cons, Nat.ofDigits_cons]

theorem littleEndian_lt (bytes : List UInt8) : littleEndian bytes < 256 ^ bytes.length := by
  have digits : ∀ digit ∈ bytes.map UInt8.toNat, digit < 256 := by
    intro digit member
    obtain ⟨byte, _, rfl⟩ := List.mem_map.mp member
    exact byte.toNat_lt
  have bound := Nat.ofDigits_lt_base_pow_length (by decide) digits
  rwa [List.length_map] at bound

/-! ## One place and all of them -/

/-- In one place the operation adds the second digit and the carry to the first digit, each taken
with a sign, and its carry counts the base, with the same sign.  The bytes are of a kind that the
operation keeps. -/
structure Computes (operation : Int → Int → Int → Result) (IsDigit : UInt8 → Prop) (base : Nat)
    (digit : UInt8 → Nat) (sign : Int) : Prop where
  keeps : ∀ (first second : UInt8) (carry : Bool), IsDigit first → IsDigit second →
    IsDigit (operation first.toNat second.toNat carry.toInt).value
  value : ∀ (first second : UInt8) (carry : Bool), IsDigit first → IsDigit second →
    (digit (operation first.toNat second.toNat carry.toInt).value : Int) +
        sign * (base * (operation first.toNat second.toNat carry.toInt).carryOut.toInt) =
      digit first + sign * (digit second + carry.toInt)

section Calculate

variable {operation : Int → Int → Int → Result}

theorem length_bytes_calculate (carry : Bool) (pairs : List (UInt8 × UInt8)) :
    (calculate operation carry pairs).bytes.length = pairs.length := by
  induction pairs generalizing carry with
  | nil => rfl
  | cons pair rest inductionHypothesis =>
      have higher := inductionHypothesis
        (operation pair.1.toNat pair.2.toNat carry.toInt).carryOut
      simp only [Calculation.bytes, List.length_map] at higher
      simp [calculate, Calculation.bytes, higher]

/-- Every place of a calculation has the result of the operation. -/
theorem result_of_mem_places {carry : Bool} {pairs : List (UInt8 × UInt8)} {place : Place}
    (member : place ∈ (calculate operation carry pairs).places) :
    place.result = operation place.first.toNat place.second.toNat place.carryIn.toInt := by
  induction pairs generalizing carry with
  | nil => simp [calculate] at member
  | cons pair rest inductionHypothesis =>
      rcases List.mem_cons.mp member with lowest | higher
      · rw [lowest]
      · exact inductionHypothesis higher

variable {IsDigit : UInt8 → Prop} {base : Nat} {digit : UInt8 → Nat} {sign : Int}

theorem keeps_calculate (computes : Computes operation IsDigit base digit sign) (carry : Bool)
    {pairs : List (UInt8 × UInt8)} (digits : ∀ pair ∈ pairs, IsDigit pair.1 ∧ IsDigit pair.2) :
    ∀ byte ∈ (calculate operation carry pairs).bytes, IsDigit byte := by
  induction pairs generalizing carry with
  | nil => simp [calculate, Calculation.bytes]
  | cons pair rest inductionHypothesis =>
      obtain ⟨lowest, higher⟩ := List.forall_mem_cons.mp digits
      intro byte member
      rcases List.mem_cons.mp member with rfl | member
      · exact computes.keeps pair.1 pair.2 carry lowest.1 lowest.2
      · exact inductionHypothesis _ higher byte member

/-- The whole numbers are combined as the digits of one place are. -/
theorem value_calculate (computes : Computes operation IsDigit base digit sign) (carry : Bool)
    {pairs : List (UInt8 × UInt8)} (digits : ∀ pair ∈ pairs, IsDigit pair.1 ∧ IsDigit pair.2) :
    (placeValue base digit (calculate operation carry pairs).bytes : Int) +
        sign * (base ^ pairs.length * (calculate operation carry pairs).carry.toInt) =
      placeValue base digit (pairs.map Prod.fst) +
        sign * (placeValue base digit (pairs.map Prod.snd) + carry.toInt) := by
  induction pairs generalizing carry with
  | nil => simp [calculate, Calculation.bytes, placeValue]
  | cons pair rest inductionHypothesis =>
      obtain ⟨lowest, higher⟩ := List.forall_mem_cons.mp digits
      have place := computes.value pair.1 pair.2 carry lowest.1 lowest.2
      have above := inductionHypothesis
        (operation pair.1.toNat pair.2.toNat carry.toInt).carryOut higher
      simp only [Calculation.bytes] at above
      simp only [calculate, Calculation.bytes, List.map_cons, placeValue_cons, List.length_cons,
        pow_succ, Nat.cast_add, Nat.cast_mul]
      linear_combination place + base * above

end Calculate

/-! ## Addition and subtraction -/

theorem toInt_decide (proposition : Prop) [Decidable proposition] :
    (decide proposition).toInt = if proposition then 1 else 0 := by
  by_cases holds : proposition <;> simp [holds]

theorem toInt_bounds (bit : Bool) : 0 ≤ bit.toInt ∧ bit.toInt ≤ 1 := by
  cases bit <;> decide

theorem toInt_carryOut_add (first second carry : Int) :
    (add first second carry).carryOut.toInt =
      if first + second + carry > 0xFF then 1 else 0 := by
  rw [Result.carryOut, Flags.holds_carryBit_toByte]
  exact toInt_decide _

theorem toInt_carryOut_subtract (first second borrow : Int) :
    (subtract first second borrow).carryOut.toInt =
      if first - second - borrow < 0 then 1 else 0 := by
  rw [Result.carryOut, Flags.holds_carryBit_toByte]
  exact toInt_decide _

theorem computes_add : Computes add (fun _ => True) 256 UInt8.toNat 1 := by
  constructor
  case keeps => exact fun _ _ _ _ _ => trivial
  case value =>
    intro first second carry _ _
    have firstBound := first.toNat_lt
    have secondBound := second.toNat_lt
    have carryBounds := toInt_bounds carry
    rw [toInt_carryOut_add, add, toNat_byteOf]
    split <;> omega

theorem computes_subtract : Computes subtract (fun _ => True) 256 UInt8.toNat (-1) := by
  constructor
  case keeps => exact fun _ _ _ _ _ => trivial
  case value =>
    intro first second borrow _ _
    have firstBound := first.toNat_lt
    have secondBound := second.toNat_lt
    have borrowBounds := toInt_bounds borrow
    rw [toInt_carryOut_subtract, subtract, toNat_byteOf]
    split <;> omega

theorem toInt_halfCarryOut_add (first second carry : Int) :
    (add first second carry).halfCarryOut.toInt =
      if first % 16 + second % 16 + carry > 0x0F then 1 else 0 := by
  rw [Result.halfCarryOut, Flags.holds_auxiliaryCarryBit_toByte]
  exact toInt_decide _

theorem toInt_halfCarryOut_subtract (first second borrow : Int) :
    (subtract first second borrow).halfCarryOut.toInt =
      if first % 16 - second % 16 - borrow < 0 then 1 else 0 := by
  rw [Result.halfCarryOut, Flags.holds_auxiliaryCarryBit_toByte]
  exact toInt_decide _

/-- The auxiliary carry is the carry out of the lower four bits of a sum. -/
theorem lowNibble_add (first second : UInt8) (carry : Bool) :
    lowNibble (add first.toNat second.toNat carry.toInt).value.toNat +
        16 * (add first.toNat second.toNat carry.toInt).halfCarryOut.toInt =
      lowNibble first.toNat + lowNibble second.toNat + carry.toInt := by
  have carryBounds := toInt_bounds carry
  rw [toInt_halfCarryOut_add, add, toNat_byteOf]
  simp only [lowNibble]
  split <;> omega

theorem lowNibble_subtract (first second : UInt8) (borrow : Bool) :
    lowNibble (subtract first.toNat second.toNat borrow.toInt).value.toNat -
        16 * (subtract first.toNat second.toNat borrow.toInt).halfCarryOut.toInt =
      lowNibble first.toNat - lowNibble second.toNat - borrow.toInt := by
  have borrowBounds := toInt_bounds borrow
  rw [toInt_halfCarryOut_subtract, subtract, toNat_byteOf]
  simp only [lowNibble]
  split <;> omega

/-- The calculation has as many bytes as the first number.  Its value with the carry above it is the
sum, and in each place the lower four bits with the auxiliary carry above them are the sum of the
lower four bits. -/
structure Calculation.IsSum (sum : Calculation) (first second : List UInt8) (carry : Bool) :
    Prop where
  length : sum.bytes.length = first.length
  value : littleEndian sum.bytes + 256 ^ first.length * sum.carry.toInt =
    littleEndian first + littleEndian second + carry.toInt
  nibbles : ∀ place ∈ sum.places,
    lowNibble place.result.value.toNat + 16 * place.result.halfCarryOut.toInt =
      lowNibble place.first.toNat + lowNibble place.second.toNat + place.carryIn.toInt

/-- The carries of a difference are taken away where those of a sum are added; the last one says
that the difference is below zero. -/
structure Calculation.IsDifference (difference : Calculation) (first second : List UInt8)
    (borrow : Bool) : Prop where
  length : difference.bytes.length = first.length
  value : littleEndian difference.bytes - 256 ^ first.length * difference.carry.toInt =
    littleEndian first - littleEndian second - borrow.toInt
  carry : difference.carry = true ↔
    (littleEndian first : Int) < littleEndian second + borrow.toInt
  nibbles : ∀ place ∈ difference.places,
    lowNibble place.result.value.toNat - 16 * place.result.halfCarryOut.toInt =
      lowNibble place.first.toNat - lowNibble place.second.toNat - place.carryIn.toInt

section Pairs

variable {operation : Int → Int → Int → Result} {first second : List UInt8}
  (sameLength : first.length = second.length)
include sameLength

theorem length_zip_of_same : (first.zip second).length = first.length := by
  rw [List.length_zip, ← sameLength, Nat.min_self]

theorem length_calculate_zip (carry : Bool) :
    (calculate operation carry (first.zip second)).bytes.length = first.length := by
  rw [length_bytes_calculate, length_zip_of_same sameLength]

theorem value_calculate_zip {base : Nat} {digit : UInt8 → Nat} {sign : Int} {IsDigit : UInt8 → Prop}
    (computes : Computes operation IsDigit base digit sign) (carry : Bool)
    (digits : ∀ pair ∈ first.zip second, IsDigit pair.1 ∧ IsDigit pair.2) :
    (placeValue base digit (calculate operation carry (first.zip second)).bytes : Int) +
        sign * (base ^ first.length *
          (calculate operation carry (first.zip second)).carry.toInt) =
      placeValue base digit first + sign * (placeValue base digit second + carry.toInt) := by
  have value := value_calculate computes carry digits
  rwa [length_zip_of_same sameLength, List.map_fst_zip (Nat.le_of_eq sameLength),
    List.map_snd_zip (Nat.le_of_eq sameLength.symm)] at value

theorem isSum_calculate (carry : Bool) :
    (calculate add carry (first.zip second)).IsSum first second carry := by
  constructor
  case length => exact length_calculate_zip sameLength carry
  case value =>
    have value := value_calculate_zip sameLength computes_add carry fun _ _ => ⟨trivial, trivial⟩
    simp only [one_mul] at value
    rw [littleEndian, littleEndian, littleEndian, add_assoc]
    exact value
  case nibbles =>
    intro place member
    rw [result_of_mem_places member]
    exact lowNibble_add place.first place.second place.carryIn

theorem isDifference_calculate (borrow : Bool) :
    (calculate subtract borrow (first.zip second)).IsDifference first second borrow := by
  have length : (calculate subtract borrow (first.zip second)).bytes.length = first.length :=
    length_calculate_zip sameLength borrow
  have value : (littleEndian (calculate subtract borrow (first.zip second)).bytes : Int) -
      256 ^ first.length * (calculate subtract borrow (first.zip second)).carry.toInt =
        littleEndian first - littleEndian second - borrow.toInt := by
    have value := value_calculate_zip sameLength computes_subtract borrow
      fun _ _ => ⟨trivial, trivial⟩
    simp only [littleEndian]
    linear_combination value
  constructor
  case length => exact length
  case value => exact value
  case carry =>
    have bound := littleEndian_lt (calculate subtract borrow (first.zip second)).bytes
    rw [length] at bound
    have large : (littleEndian (calculate subtract borrow (first.zip second)).bytes : Int) <
        256 ^ first.length := by
      exact_mod_cast bound
    generalize (calculate subtract borrow (first.zip second)).carry = last at value ⊢
    generalize (256 : Int) ^ first.length = size at value large
    cases last <;> simp at value ⊢ <;> omega
  case nibbles =>
    intro place member
    rw [result_of_mem_places member]
    exact lowNibble_subtract place.first place.second place.carryIn

end Pairs

/-- Addition and subtraction with the carry are exact for numbers of any length, whatever the carry
that goes in. -/
theorem calculate_add_subtract {first second : List UInt8}
    (sameLength : first.length = second.length) (carry : Bool) :
    (calculate add carry (first.zip second)).IsSum first second carry ∧
      (calculate subtract carry (first.zip second)).IsDifference first second carry :=
  ⟨isSum_calculate sameLength carry, isDifference_calculate sameLength carry⟩

/-- In both places it is the carry alone that makes the sum too large and the difference too
small. -/
theorem calculate_add_subtract_of_ripple :
    (calculate add true ([0, 0].zip [0xFF, 0xFF])).bytes = [0, 0] ∧
      (calculate add true ([0, 0].zip [0xFF, 0xFF])).carry = true ∧
      (calculate add true ([0, 0].zip [0xFF, 0xFF])).IsSum [0, 0] [0xFF, 0xFF] true ∧
      (calculate subtract true ([0, 0].zip [0xFF, 0xFF])).IsDifference
        [0, 0] [0xFF, 0xFF] true := by
  have sameLength : ([0, 0] : List UInt8).length = ([0xFF, 0xFF] : List UInt8).length := rfl
  exact ⟨by decide, by decide, calculate_add_subtract sameLength true⟩

end Arithmetic

end Intel8085
