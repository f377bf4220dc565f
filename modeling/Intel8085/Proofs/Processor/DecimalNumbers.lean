import Intel8085.Proofs.Processor.LongNumbers

/-!
# Numbers of decimal digits

A packed byte holds two decimal digits, one in each half.  The sum of two packed bytes, adjusted, is
again a packed byte, and its carry is the decimal carry (`computes_addAdjusted`).  So decimal
numbers of any length are added byte by byte, with an adjustment after every addition
(`calculate_addAdjusted`).
-/

set_option autoImplicit false

namespace Intel8085.Arithmetic

/-- Both halves of the byte are decimal digits. -/
def IsPacked (byte : UInt8) : Prop :=
  byte.toNat / 16 ≤ 9 ∧ byte.toNat % 16 ≤ 9

instance (byte : UInt8) : Decidable (IsPacked byte) :=
  inferInstanceAs (Decidable (_ ∧ _))

/-- The number of two decimal digits that a packed byte stands for. -/
def packedDigits (byte : UInt8) : Nat :=
  10 * (byte.toNat / 16) + byte.toNat % 16

/-- The decimal number that packed bytes stand for, the lowest digits first. -/
def packedDecimal (bytes : List UInt8) : Nat :=
  placeValue 100 packedDigits bytes

/-- The sum of two bytes and a carry, adjusted by the flags of that sum. -/
def addAdjusted (first second carry : Int) : Result :=
  let sum := add first second carry
  decimalAdjust sum.value.toNat sum.flags.toByte.toNat

theorem lowestBit_toByte (flags : Flags) :
    lowestBit flags.toByte.toNat = flags.carry ∧
      lowestBit ((flags.toByte.toNat : Int) / 16) = flags.auxiliaryCarry := by
  obtain ⟨sign, zero, auxiliaryCarry, parity, carry⟩ := flags
  revert sign zero auxiliaryCarry parity carry
  decide

/-- What the adjustment makes of a binary sum, where `lower` is the sum of the lower digits with the
carry and `upper` that of the upper digits. -/
theorem decimalAdjust_of_sums {lower upper : Int} (lowerBounds : 0 ≤ lower ∧ lower ≤ 19)
    (upperBounds : 0 ≤ upper ∧ upper ≤ 18) {number status : Int}
    (isSum : number = (16 * upper + lower) % 256)
    (auxiliaryCarry : lowestBit (status / 16) = decide (lower > 0x0F))
    (carry : lowestBit status = decide (16 * upper + lower > 0xFF)) :
    ((decimalAdjust number status).value.toNat : Int) =
        16 * ((upper + lower / 10) % 10) + lower % 10 ∧
      (decimalAdjust number status).carryOut.toInt = (upper + lower / 10) / 10 := by
  -- six is added exactly when the lower digits make more than nine
  have adjustsLower : (decide (lowNibble number > 9) || lowestBit (status / 16)) =
      decide (lower > 9) := by
    rw [auxiliaryCarry, ← Bool.decide_or, decide_eq_decide, lowNibble]
    omega
  -- and sixty exactly when the upper digits do so with the decimal carry of the lower ones
  have adjustsUpper : (decide ((if lower > 9 then number + 6 else number) / 16 > 9) ||
      lowestBit status) = decide (upper + lower / 10 > 9) := by
    rw [carry, ← Bool.decide_or, decide_eq_decide]
    split <;> omega
  have value : (decimalAdjust number status).value =
      byteOf (number + (if lower > 9 then 6 else 0) +
        (if upper + lower / 10 > 9 then 0x60 else 0)) := by
    simp only [decimalAdjust, adjustsLower, decide_eq_true_eq, adjustsUpper]
    congr 1
    split <;> split <;> omega
  have carryOut : (decimalAdjust number status).carryOut.toInt =
      if upper + lower / 10 > 9 then 1 else 0 := by
    rw [Result.carryOut, Flags.holds_carryBit_toByte]
    simp only [decimalAdjust, Flags.ofResult, adjustsLower, decide_eq_true_eq, adjustsUpper]
    -- with no sixty added the total is no more than a byte
    rw [← Bool.decide_or, toInt_decide]
    apply if_congr _ rfl rfl
    split <;> split <;> omega
  rw [value, carryOut, toNat_byteOf]
  constructor
  · split <;> split <;> omega
  · split <;> omega

/-- The digits of an adjusted sum, in terms of the sums of the digits. -/
theorem addAdjusted_of_packed {first second : UInt8} (firstPacked : IsPacked first)
    (secondPacked : IsPacked second) (carry : Bool) :
    let lower : Int := (first.toNat % 16 : Nat) + (second.toNat % 16 : Nat) + carry.toInt
    let upper : Int := (first.toNat / 16 : Nat) + (second.toNat / 16 : Nat)
    let result := addAdjusted first.toNat second.toNat carry.toInt
    (result.value.toNat : Int) = 16 * ((upper + lower / 10) % 10) + lower % 10 ∧
      result.carryOut.toInt = (upper + lower / 10) / 10 := by
  intro lower upper result
  obtain ⟨firstUpper, firstLower⟩ := firstPacked
  obtain ⟨secondUpper, secondLower⟩ := secondPacked
  have carryBounds := toInt_bounds carry
  obtain ⟨carryBit, auxiliaryCarryBit⟩ :=
    lowestBit_toByte (add first.toNat second.toNat carry.toInt).flags
  apply decimalAdjust_of_sums
  · omega
  · omega
  · rw [add, toNat_byteOf]
    omega
  · rw [auxiliaryCarryBit]
    apply decide_eq_decide.mpr
    simp only [lowNibble]
    omega
  · rw [carryBit]
    apply decide_eq_decide.mpr
    omega

theorem computes_addAdjusted : Computes addAdjusted IsPacked 100 packedDigits 1 := by
  constructor
  case keeps =>
    intro first second carry firstPacked secondPacked
    obtain ⟨value, _⟩ := addAdjusted_of_packed firstPacked secondPacked carry
    constructor <;> omega
  case value =>
    intro first second carry firstPacked secondPacked
    obtain ⟨value, carryOut⟩ := addAdjusted_of_packed firstPacked secondPacked carry
    rw [carryOut]
    simp only [packedDigits]
    omega

/-- The calculation has as many bytes as the first number, all of them packed, and its value with
the carry above it is the sum. -/
structure Calculation.IsDecimalSum (sum : Calculation) (first second : List UInt8) (carry : Bool) :
    Prop where
  length : sum.bytes.length = first.length
  packed : ∀ byte ∈ sum.bytes, IsPacked byte
  value : packedDecimal sum.bytes + 100 ^ first.length * sum.carry.toInt =
    packedDecimal first + packedDecimal second + carry.toInt

/-- Adding two packed decimal numbers of any length byte by byte, and adjusting after each addition,
gives their decimal sum, whatever the carry that goes in. -/
theorem calculate_addAdjusted {first second : List UInt8}
    (sameLength : first.length = second.length) (firstPacked : ∀ byte ∈ first, IsPacked byte)
    (secondPacked : ∀ byte ∈ second, IsPacked byte) (carry : Bool) :
    (calculate addAdjusted carry (first.zip second)).IsDecimalSum first second carry := by
  have digits : ∀ pair ∈ first.zip second, IsPacked pair.1 ∧ IsPacked pair.2 := by
    intro pair member
    obtain ⟨inFirst, inSecond⟩ := List.of_mem_zip member
    exact ⟨firstPacked _ inFirst, secondPacked _ inSecond⟩
  constructor
  case length => exact length_calculate_zip sameLength carry
  case packed => exact keeps_calculate computes_addAdjusted carry digits
  case value =>
    have value := value_calculate_zip sameLength computes_addAdjusted carry digits
    simp only [one_mul] at value
    rw [packedDecimal, packedDecimal, packedDecimal, add_assoc]
    exact value

/-- The sum of 9999 and 1. -/
theorem calculate_addAdjusted_of_nines :
    (calculate addAdjusted false ([0x99, 0x99].zip [0x01, 0x00])).bytes = [0, 0] ∧
      (calculate addAdjusted false ([0x99, 0x99].zip [0x01, 0x00])).carry = true ∧
      packedDecimal [0x99, 0x99] = 9999 ∧
      (calculate addAdjusted false ([0x99, 0x99].zip [0x01, 0x00])).IsDecimalSum
        [0x99, 0x99] [0x01, 0x00] false := by
  have sameLength : ([0x99, 0x99] : List UInt8).length = ([0x01, 0x00] : List UInt8).length := rfl
  have firstPacked : ∀ byte ∈ ([0x99, 0x99] : List UInt8), IsPacked byte := by
    rw [List.forall_mem_cons, List.forall_mem_singleton]
    decide
  have secondPacked : ∀ byte ∈ ([0x01, 0x00] : List UInt8), IsPacked byte := by
    rw [List.forall_mem_cons, List.forall_mem_singleton]
    decide
  exact ⟨by decide, by decide, by decide,
    calculate_addAdjusted sameLength firstPacked secondPacked false⟩

end Intel8085.Arithmetic
