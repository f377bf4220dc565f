import Intel8085.Numbers

/-!
# Banks of cells

A bank of height `n` holds `2 ^ n` cells in a tree whose two halves are banks of height `n - 1`, so
reading and writing a cell take `n` steps and an earlier state of the bank stays as it was.  The
bits of an address choose the halves from the uppermost bit down; higher bits do not count.

Two banks are equal when they agree on every address below `2 ^ n` (`Bank.ext_get`).  A cell that was set reads as
what it was set to (`Bank.get_set_same`) and every other cell as before (`Bank.get_set_other`).
-/

set_option autoImplicit false

namespace Intel8085

/-- `2 ^ height` cells. -/
inductive Bank (Cell : Type) : Nat → Type where
  | cell (value : Cell) : Bank Cell 0
  | halves {height : Nat} (low high : Bank Cell height) : Bank Cell (height + 1)
  deriving DecidableEq

namespace Bank

variable {Cell : Type}

def filled (value : Cell) : (height : Nat) → Bank Cell height
  | 0 => .cell value
  | height + 1 => let half := filled value height; .halves half half

/-- The bank whose cells hold what the function gives for the addresses from `start` on. -/
def tabulate (content : Nat → Cell) : (height : Nat) → (start : Nat) → Bank Cell height
  | 0, start => .cell (content start)
  | height + 1, start =>
      .halves (tabulate content height start) (tabulate content height (start + 2 ^ height))

def get : {height : Nat} → Bank Cell height → (address : Nat) → Cell
  | 0, .cell value, _ => value
  | height + 1, .halves low high, address =>
      if address.testBit height then high.get address else low.get address

def set : {height : Nat} → Bank Cell height → (address : Nat) → Cell → Bank Cell height
  | 0, .cell _, _, value => .cell value
  | height + 1, .halves low high, address, value =>
      if address.testBit height then .halves low (high.set address value)
      else .halves (low.set address value) high

/-- The cells in front of a list, in the order of their addresses. -/
def toListAppend : {height : Nat} → Bank Cell height → List Cell → List Cell
  | 0, .cell value, rest => value :: rest
  | _ + 1, .halves low high, rest => low.toListAppend (high.toListAppend rest)

def toList {height : Nat} (bank : Bank Cell height) : List Cell :=
  bank.toListAppend []

/-- The lowest address, counted from `start`, whose cell passes a test. -/
def findFrom (test : Cell → Bool) : {height : Nat} → Bank Cell height → (start : Nat) → Option Nat
  | 0, .cell value, start => if test value then some start else none
  | height + 1, .halves low high, start =>
      (low.findFrom test start).or (high.findFrom test (start + 2 ^ height))

def find? {height : Nat} (test : Cell → Bool) (bank : Bank Cell height) : Option Nat :=
  bank.findFrom test 0

theorem get_filled (value : Cell) (height address : Nat) :
    (filled value height).get address = value := by
  induction height with
  | zero => rfl
  | succ height inductionHypothesis => simp [filled, get, inductionHypothesis]

theorem get_tabulate (content : Nat → Cell) (height start address : Nat) :
    (tabulate content height start).get address = content (start + address % 2 ^ height) := by
  induction height generalizing start with
  | zero => simp [tabulate, get, Nat.mod_one]
  | succ height inductionHypothesis =>
      have split : address % 2 ^ (height + 1) =
          2 ^ height * (address / 2 ^ height % 2) + address % 2 ^ height := by
        rw [Nat.pow_succ, Nat.mod_mul, Nat.add_comm]
      have bit : address.testBit height = decide (address / 2 ^ height % 2 = 1) := by
        rw [Nat.testBit_eq_decide_div_mod_eq]
      simp only [tabulate, get, inductionHypothesis]
      by_cases upper : address / 2 ^ height % 2 = 1
      · simp [bit, upper, split, Nat.add_assoc]
      · have lower : address / 2 ^ height % 2 = 0 := by omega
        simp [bit, lower, split]

theorem get_set_same {height : Nat} (bank : Bank Cell height) (address : Nat) (value : Cell) :
    (bank.set address value).get address = value := by
  induction bank with
  | cell content => rfl
  | @halves height low high lowInduction highInduction =>
      by_cases upper : address.testBit height = true
      · simp [set, get, upper, highInduction]
      · simp [set, get, upper, lowInduction]

theorem eq_of_testBit_eq_of_mod_eq {height first second : Nat}
    (bit : first.testBit height = second.testBit height)
    (rest : first % 2 ^ height = second % 2 ^ height) :
    first % 2 ^ (height + 1) = second % 2 ^ (height + 1) := by
  apply Nat.eq_of_testBit_eq
  intro position
  have lowBits : (first % 2 ^ height).testBit position = (second % 2 ^ height).testBit position := by
    rw [rest]
  simp only [Nat.testBit_mod_two_pow] at lowBits ⊢
  by_cases below : position < height
  · have within : position < height + 1 := by omega
    simpa [below, within] using lowBits
  · by_cases top : position = height
    · simp [top, bit]
    · have beyond : ¬ position < height + 1 := by omega
      simp [beyond]

theorem get_set_other {height : Nat} (bank : Bank Cell height) {address other : Nat}
    (value : Cell) (distinct : other % 2 ^ height ≠ address % 2 ^ height) :
    (bank.set address value).get other = bank.get other := by
  induction bank with
  | cell content => simp [Nat.mod_one] at distinct
  | @halves height low high lowInduction highInduction =>
      by_cases upper : address.testBit height = true <;>
        by_cases otherUpper : other.testBit height = true
      · have inner : other % 2 ^ height ≠ address % 2 ^ height := fun same =>
          distinct (eq_of_testBit_eq_of_mod_eq (otherUpper.trans upper.symm) same)
        simp [set, get, upper, otherUpper, highInduction inner]
      · simp [set, get, upper, otherUpper]
      · simp [set, get, upper, otherUpper]
      · have sameBit : other.testBit height = address.testBit height := by
          simp [Bool.not_eq_true] at upper otherUpper
          rw [upper, otherUpper]
        have inner : other % 2 ^ height ≠ address % 2 ^ height := fun same =>
          distinct (eq_of_testBit_eq_of_mod_eq sameBit same)
        simp [set, get, upper, otherUpper, lowInduction inner]

theorem fails_of_findFrom_eq_none {test : Cell → Bool} {height : Nat} {bank : Bank Cell height}
    {start : Nat} (missing : bank.findFrom test start = none) (address : Nat) :
    test (bank.get address) = false := by
  induction bank generalizing start with
  | cell value => simpa [findFrom, get] using missing
  | @halves height low high lowInduction highInduction =>
      obtain ⟨lowMissing, highMissing⟩ := Option.or_eq_none_iff.1 missing
      by_cases upper : address.testBit height = true
      · simpa [get, upper] using highInduction highMissing
      · simpa [get, upper] using lowInduction lowMissing

theorem fails_of_find?_eq_none {test : Cell → Bool} {height : Nat} {bank : Bank Cell height}
    (missing : bank.find? test = none) (address : Nat) : test (bank.get address) = false :=
  fails_of_findFrom_eq_none missing address

/-- A bank reads only the bits of an address below its height. -/
theorem get_eq_of_testBit_eq {height : Nat} (bank : Bank Cell height) {first second : Nat}
    (agree : ∀ position < height, first.testBit position = second.testBit position) :
    bank.get first = bank.get second := by
  induction bank with
  | cell value => rfl
  | @halves height low high lowInduction highInduction =>
      have below : ∀ position < height, first.testBit position = second.testBit position :=
        fun position bound => agree position (by omega)
      simp only [get]
      rw [agree height (by omega), lowInduction below, highInduction below]

theorem get_two_pow_add {height : Nat} (bank : Bank Cell height) (address : Nat) :
    bank.get (2 ^ height + address) = bank.get address := by
  apply get_eq_of_testBit_eq
  intro position bound
  exact Nat.testBit_two_pow_add_gt bound address

/-- Addresses below `2 ^ height` tell banks apart. -/
theorem ext_get {height : Nat} {first second : Bank Cell height}
    (agree : ∀ address < 2 ^ height, first.get address = second.get address) : first = second := by
  induction first with
  | cell value =>
      cases second with
      | cell other => exact congrArg Bank.cell (agree 0 (by decide))
  | @halves height low high lowInduction highInduction =>
      cases second with
      | halves otherLow otherHigh =>
          have lowAgree : low = otherLow := by
            apply lowInduction
            intro address bound
            have wider : address < 2 ^ (height + 1) := by
              rw [Nat.pow_succ]
              omega
            have clear : address.testBit height = false := Nat.testBit_lt_two_pow bound
            simpa [get, clear] using agree address wider
          have highAgree : high = otherHigh := by
            apply highInduction
            intro address bound
            have wider : 2 ^ height + address < 2 ^ (height + 1) := by
              rw [Nat.pow_succ]
              omega
            have setBit : (2 ^ height + address).testBit height = true := by
              rw [Nat.testBit_two_pow_add_eq, Nat.testBit_lt_two_pow bound]
              rfl
            have atUpper := agree (2 ^ height + address) wider
            simp only [get, setBit, if_true] at atUpper
            rw [get_two_pow_add high address, get_two_pow_add otherHigh address] at atUpper
            exact atUpper
          rw [lowAgree, highAgree]

end Bank

end Intel8085
