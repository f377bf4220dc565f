import Intel8085.Storage.Bank

/-!
# The cells of a bank as a list

A bank lists its cells in the order of their addresses (`toList_eq_map_get`, `toList_set`), and a
search through it finds a cell that passes the test exactly when there is one (`isSome_find?_iff`).
-/

set_option autoImplicit false

namespace Intel8085.Bank

variable {Cell : Type}

theorem get_low {height : Nat} (low high : Bank Cell height) {address : Nat}
    (below : address < 2 ^ height) : (Bank.halves low high).get address = low.get address := by
  have clear : address.testBit height = false := Nat.testBit_lt_two_pow below
  simp [get, clear]

theorem get_high {height : Nat} (low high : Bank Cell height) {address : Nat}
    (below : address < 2 ^ height) :
    (Bank.halves low high).get (2 ^ height + address) = high.get address := by
  have setBit : (2 ^ height + address).testBit height = true := by
    rw [Nat.testBit_two_pow_add_eq, Nat.testBit_lt_two_pow below]
    rfl
  simp only [get, setBit, if_true]
  exact get_two_pow_add high address

/-! ## Listing -/

theorem range_two_pow_succ (height : Nat) :
    List.range (2 ^ (height + 1)) =
      List.range (2 ^ height) ++ (List.range (2 ^ height)).map (2 ^ height + ·) := by
  rw [Nat.pow_succ, Nat.mul_two, List.range_add]

theorem toListAppend_eq {height : Nat} (bank : Bank Cell height) (rest : List Cell) :
    bank.toListAppend rest = (List.range (2 ^ height)).map bank.get ++ rest := by
  induction bank generalizing rest with
  | cell value => rfl
  | @halves height low high lowInduction highInduction =>
      have lower : (List.range (2 ^ height)).map (Bank.halves low high).get =
          (List.range (2 ^ height)).map low.get := by
        apply List.map_congr_left
        intro address member
        exact get_low low high (List.mem_range.1 member)
      have upper : ((List.range (2 ^ height)).map (2 ^ height + ·)).map (Bank.halves low high).get =
          (List.range (2 ^ height)).map high.get := by
        rw [List.map_map]
        apply List.map_congr_left
        intro address member
        exact get_high low high (List.mem_range.1 member)
      rw [toListAppend, lowInduction, highInduction, range_two_pow_succ, List.map_append, lower,
        upper, List.append_assoc]

theorem toList_eq_map_get {height : Nat} (bank : Bank Cell height) :
    bank.toList = (List.range (2 ^ height)).map bank.get := by
  rw [toList, toListAppend_eq, List.append_nil]

theorem length_toList {height : Nat} (bank : Bank Cell height) :
    bank.toList.length = 2 ^ height := by
  rw [toList_eq_map_get, List.length_map, List.length_range]

theorem getElem?_toList {height : Nat} (bank : Bank Cell height) {address : Nat}
    (below : address < 2 ^ height) : bank.toList[address]? = some (bank.get address) := by
  rw [toList_eq_map_get, List.getElem?_map, List.getElem?_range below, Option.map_some]

theorem toList_filled (value : Cell) (height : Nat) :
    (filled value height).toList = List.replicate (2 ^ height) value := by
  rw [toList_eq_map_get, List.eq_replicate_iff]
  constructor
  · rw [List.length_map, List.length_range]
  · intro cell member
    obtain ⟨address, _, rfl⟩ := List.mem_map.1 member
    exact get_filled value height address

theorem toList_set {height : Nat} (bank : Bank Cell height) {address : Nat}
    (below : address < 2 ^ height) (value : Cell) :
    (bank.set address value).toList = bank.toList.set address value := by
  apply List.ext_getElem?
  intro index
  by_cases inside : index < 2 ^ height
  · rw [getElem?_toList _ inside, List.getElem?_set, length_toList, getElem?_toList _ inside]
    by_cases same : address = index
    · rw [if_pos same, if_pos below, ← same, get_set_same]
    · have apart : index % 2 ^ height ≠ address % 2 ^ height := by
        rw [Nat.mod_eq_of_lt inside, Nat.mod_eq_of_lt below]
        exact Ne.symm same
      rw [if_neg same, get_set_other bank value apart]
  · rw [List.getElem?_eq_none (by rw [length_toList]; omega),
      List.getElem?_eq_none (by rw [List.length_set, length_toList]; omega)]

/-- What is left of the cells from an address on begins with the cell at that address. -/
theorem drop_toList {height : Nat} (bank : Bank Cell height) {address : Nat}
    (below : address < 2 ^ height) :
    bank.toList.drop address = bank.get address :: bank.toList.drop (address + 1) := by
  have inside : address < bank.toList.length := by rwa [length_toList]
  rw [List.drop_eq_getElem_cons inside]
  congr 1
  simp only [toList_eq_map_get, List.getElem_map, List.getElem_range]

/-! ## Searching -/

theorem passes_of_findFrom_eq_some {test : Cell → Bool} {height : Nat} {bank : Bank Cell height}
    {start found : Nat} (search : bank.findFrom test start = some found) :
    ∃ address < 2 ^ height, found = start + address ∧ test (bank.get address) = true := by
  induction bank generalizing start with
  | cell value =>
      by_cases passes : test value = true
      · simp only [findFrom, passes, if_true, Option.some.injEq] at search
        exact ⟨0, by decide, by omega, passes⟩
      · simp [findFrom, passes] at search
  | @halves height low high lowInduction highInduction =>
      have wider : 2 ^ (height + 1) = 2 ^ height + 2 ^ height := by
        rw [Nat.pow_succ, Nat.mul_two]
      simp only [findFrom] at search
      rcases Option.or_eq_some_iff.1 search with inLow | ⟨_, inHigh⟩
      · obtain ⟨address, below, position, passes⟩ := lowInduction inLow
        refine ⟨address, by omega, position, ?_⟩
        rw [get_low low high below]
        exact passes
      · obtain ⟨address, below, position, passes⟩ := highInduction inHigh
        refine ⟨2 ^ height + address, by omega, by omega, ?_⟩
        rw [get_high low high below]
        exact passes

theorem passes_of_find?_eq_some {test : Cell → Bool} {height : Nat} {bank : Bank Cell height}
    {found : Nat} (search : bank.find? test = some found) :
    found < 2 ^ height ∧ test (bank.get found) = true := by
  obtain ⟨address, below, position, passes⟩ := passes_of_findFrom_eq_some search
  rw [Nat.zero_add] at position
  subst position
  exact ⟨below, passes⟩

theorem isSome_find?_iff {test : Cell → Bool} {height : Nat} {bank : Bank Cell height} :
    (bank.find? test).isSome = true ↔ ∃ address < 2 ^ height, test (bank.get address) = true := by
  constructor
  · intro present
    obtain ⟨found, search⟩ := Option.isSome_iff_exists.1 present
    exact ⟨found, passes_of_find?_eq_some search⟩
  · rintro ⟨address, _, passes⟩
    cases search : bank.find? test with
    | none =>
        rw [fails_of_find?_eq_none search address] at passes
        exact absurd passes (by decide)
    | some found => rfl

end Intel8085.Bank
