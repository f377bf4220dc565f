import Intel8085.Processor.Registers
import Mathlib.Algebra.Group.Nat.Even

/-!
# The bits of the status byte

Taking the bits of a mask from flags replaces just those bits of the status byte
(`statusBit_replaceStatus`), and the flags of a result put its sign, its zero and its parity into
bits 7, 6 and 2 (`showsResult_replaceStatus`).
-/

set_option autoImplicit false

namespace Intel8085

/-- The number of ones among the bits of a byte. -/
def onesIn (byte : UInt8) : Nat :=
  (List.range 8).countP fun position => byte.toNat.testBit position

namespace Flags

theorem testBit_replaceBits (mask status source : UInt8) {position : Nat} (below : position < 8) :
    (replaceBits mask status source).toNat.testBit position =
      if mask.toNat.testBit position then source.toNat.testBit position
      else status.toNat.testBit position := by
  simp only [replaceBits, UInt8.toNat, UInt8.toBitVec_or, UInt8.toBitVec_and, UInt8.toBitVec_not,
    BitVec.testBit_toNat, BitVec.getLsbD_or, BitVec.getLsbD_and, BitVec.getLsbD_not, below]
  cases mask.toBitVec.getLsbD position <;> simp

/-- The condition that stands at a position of the status byte, if one does. -/
def at? (flags : Flags) : Fin 8 → Option Bool
  | 7 => some flags.sign
  | 6 => some flags.zero
  | 4 => some flags.auxiliaryCarry
  | 2 => some flags.parity
  | 0 => some flags.carry
  | _ => none

theorem testBit_toByte (flags : Flags) (position : Fin 8) :
    flags.toByte.toNat.testBit position = (flags.at? position).getD false := by
  obtain ⟨sign, zero, auxiliaryCarry, parity, carry⟩ := flags
  revert sign zero auxiliaryCarry parity carry position
  decide

theorem testBit_carryBit {position : Fin 8} (other : position ≠ 0) :
    carryBit.toNat.testBit position = false := by
  revert position
  decide

end Flags

namespace Registers

/-- The bits at some positions of the status byte are as they were. -/
def AgreesAt (positions : List (Fin 8)) (before after : Registers) : Prop :=
  ∀ position ∈ positions, after.statusBit position = before.statusBit position

/-- The sign, zero and parity bits of the status byte are those of a byte. -/
structure ShowsResult (registers : Registers) (result : UInt8) : Prop where
  zero : registers.statusBit 6 = true ↔ result = 0
  sign : registers.statusBit 7 = result.toNat.testBit 7
  parity : registers.statusBit 2 = true ↔ Even (onesIn result)

variable (registers : Registers) {positions : List (Fin 8)} {mask : UInt8}

theorem statusBit_replaceStatus (source : UInt8) (position : Fin 8) :
    (registers.replaceStatus mask source).statusBit position =
      if mask.toNat.testBit position then source.toNat.testBit position
      else registers.statusBit position :=
  Flags.testBit_replaceBits mask registers.status source position.isLt

theorem statusBit_of_flags (flags : Flags) {position : Fin 8}
    (covered : mask.toNat.testBit position = true) :
    (registers.replaceStatus mask flags.toByte).statusBit position =
      (flags.at? position).getD false := by
  rw [statusBit_replaceStatus, if_pos covered, Flags.testBit_toByte]

theorem testBit_two_pow_position (position other : Fin 8) :
    (UInt8.ofNat (2 ^ position.val)).toNat.testBit other = decide (other = position) := by
  revert position other
  decide

/-- Setting one bit of the status byte leaves the others. -/
theorem statusBit_setStatusBit (position other : Fin 8) (value : Bool) :
    (registers.setStatusBit position value).statusBit other =
      if other = position then value else registers.statusBit other := by
  have bit := testBit_two_pow_position position other
  have below := other.isLt
  simp only [UInt8.toNat, BitVec.testBit_toNat] at bit
  simp only [setStatusBit, statusBit]
  cases value <;>
    simp only [UInt8.toNat, UInt8.toBitVec_or, UInt8.toBitVec_and, UInt8.toBitVec_not,
      BitVec.testBit_toNat, BitVec.getLsbD_or, BitVec.getLsbD_and, BitVec.getLsbD_not, below, bit,
      if_true, Bool.false_eq_true, if_false] <;>
    by_cases same : other = position <;> simp [same]

theorem agreesAt_replaceStatus (source : UInt8)
    (outside : ∀ position ∈ positions, mask.toNat.testBit position.val = false) :
    AgreesAt positions registers (registers.replaceStatus mask source) := by
  intro position member
  simp [statusBit_replaceStatus, outside position member]

theorem agreesAt_setCarry (noCarry : 0 ∉ positions) :
    AgreesAt positions registers
      { registers with status := registers.status ||| Flags.carryBit } := by
  intro position member
  have clear := Flags.testBit_carryBit fun same : position = 0 => noCarry (same ▸ member)
  simp [statusBit, Nat.testBit_or, clear]

theorem agreesAt_complementCarry (noCarry : 0 ∉ positions) :
    AgreesAt positions registers
      { registers with status := registers.status ^^^ Flags.carryBit } := by
  intro position member
  have clear := Flags.testBit_carryBit fun same : position = 0 => noCarry (same ▸ member)
  simp [statusBit, Nat.testBit_xor, clear]

/-- The flags of a result, taken with a mask that has its sign, its zero and its parity. -/
theorem showsResult_replaceStatus
    (covers : ∀ position ∈ ([2, 6, 7] : List (Fin 8)), mask.toNat.testBit position = true)
    (result : UInt8) (auxiliaryCarry carry : Bool) :
    (registers.replaceStatus mask (Flags.ofResult result auxiliaryCarry carry).toByte).ShowsResult
      result := by
  have bound := result.toNat_lt
  constructor
  · rw [statusBit_of_flags registers _ (covers 6 (by decide))]
    simp [Flags.at?, Flags.ofResult]
  · rw [statusBit_of_flags registers _ (covers 7 (by decide))]
    simp only [Flags.at?, Flags.ofResult, Option.getD_some, Nat.testBit_eq_decide_div_mod_eq]
    rw [decide_eq_decide]
    omega
  · rw [statusBit_of_flags registers _ (covers 2 (by decide)), Nat.even_iff]
    simp [Flags.at?, Flags.ofResult, Flags.evenParity, onesIn]

end Registers

end Intel8085
