import Intel8085.Machine.Memory
import Intel8085.Machine.Ports
import Intel8085.Proofs.Storage.Cells

/-!
# Stretches of memory

A stretch of memory begins at an address and must end within the address space; the check of it
finds the first address that does not exist, and nothing else (`checkStretch_of_fits`,
`checkStretch_of_outside`, `checkStretch_of_beyond`).  An image that is stored changes the cells of
its stretch and no others, and the stretch then reads as the image (`get_store_inside`,
`get_store_outside`, `take_drop_store`).  A port exists when its number is a byte (`Ports.port_toNat`,
`Ports.port_of_outside`).
-/

set_option autoImplicit false

namespace Intel8085

theorem exists_word {number : Int} (inside : 0 ≤ number ∧ number < 65536) :
    ∃ word : UInt16, number = word.toNat := by
  refine ⟨wordOf number, ?_⟩
  rw [toNat_wordOf]
  omega

theorem exists_byte {number : Int} (inside : 0 ≤ number ∧ number < 256) :
    ∃ byte : UInt8, number = byte.toNat := by
  refine ⟨byteOf number, ?_⟩
  rw [toNat_byteOf]
  omega

namespace Memory

/-! ## Checks -/

theorem address_toNat (word : UInt16) : Memory.address word.toNat = .ok word := by
  have bound := word.toNat_lt
  have inside : 0 ≤ (word.toNat : Int) ∧ (word.toNat : Int) ≤ 0xFFFF := by omega
  rw [Memory.address, if_pos inside, wordOf_toNat]

theorem address_of_outside {number : Int} (outside : ¬ (0 ≤ number ∧ number < 65536)) :
    Memory.address number = .error (.addressOutOfBounds number) := by
  have refused : ¬ (0 ≤ number ∧ number ≤ 0xFFFF) := by omega
  rw [Memory.address, if_neg refused]

section Stretches

variable {start : UInt16} {length : Int}

theorem checkStretch_of_fits (natural : 0 ≤ length) (fits : start.toNat + length ≤ 65536) :
    checkStretch start.toNat length = .ok start := by
  rw [checkStretch, address_toNat]
  by_cases empty : length = 0
  · simp only [empty]
    rfl
  · obtain ⟨last, named⟩ : ∃ last : UInt16, start.toNat + length - 1 = last.toNat :=
      exists_word (by omega)
    simp only [named, address_toNat, ne_eq, empty, not_false_eq_true, if_true]
    rfl

theorem checkStretch_of_outside {first : Int} (outside : ¬ (0 ≤ first ∧ first < 65536)) :
    checkStretch first length = .error (.addressOutOfBounds first) := by
  rw [checkStretch, address_of_outside outside]
  rfl

theorem checkStretch_of_beyond (beyond : 65536 < start.toNat + length) :
    checkStretch start.toNat length = .error (.addressOutOfBounds (start.toNat + length - 1)) := by
  have bound := start.toNat_lt
  have positive : length ≠ 0 := by omega
  have outside : ¬ (0 ≤ start.toNat + length - 1 ∧ start.toNat + length - 1 < 65536) := by omega
  rw [checkStretch, address_toNat]
  simp only [address_of_outside outside, ne_eq, positive, not_false_eq_true, if_true]
  rfl

end Stretches

/-! ## Images -/

theorem fill_eq_load (memory : Memory) (byte : UInt8) (count : Nat) (base : Int) :
    memory.fill byte count base = memory.load (List.replicate count byte) base := by
  rw [fill, load, List.length_replicate]

theorem get_store_outside (memory : Memory) {base address : Nat} {image : List UInt8}
    (fits : base + image.length ≤ 65536) (below : address < 65536)
    (outside : ¬ (base ≤ address ∧ address < base + image.length)) :
    (memory.store base image).get address = memory.get address := by
  induction image generalizing memory base with
  | nil => rfl
  | cons byte rest inductionHypothesis =>
      simp only [List.length_cons] at fits outside
      have restOutside : ¬ (base + 1 ≤ address ∧ address < base + 1 + rest.length) := by omega
      have apart : address % 2 ^ 16 ≠ base % 2 ^ 16 := by omega
      rw [store, inductionHypothesis (memory.set base byte) (by omega) restOutside,
        Bank.get_set_other memory byte apart]

theorem get_store_inside (memory : Memory) {base index : Nat} {image : List UInt8}
    (fits : base + image.length ≤ 65536) (inside : index < image.length) :
    (memory.store base image).get (base + index) = image[index] := by
  induction image generalizing memory base index with
  | nil => cases inside
  | cons byte rest inductionHypothesis =>
      simp only [List.length_cons] at fits inside
      cases index with
      | zero =>
          have behind : ¬ (base + 1 ≤ base ∧ base < base + 1 + rest.length) := by omega
          have kept := get_store_outside (memory.set base byte) (by omega) (by omega) behind
          exact kept.trans (Bank.get_set_same memory base byte)
      | succ index =>
          have restFits : base + 1 + rest.length ≤ 65536 := by omega
          have later := inductionHypothesis (memory.set base byte) restFits
            (Nat.lt_of_succ_lt_succ inside)
          rw [Nat.add_assoc, Nat.add_comm 1 index] at later
          exact later

theorem getElem?_take_drop (memory : Memory) {base length index : Nat}
    (fits : base + length ≤ 65536) (inside : index < length) :
    ((memory.toList.drop base).take length)[index]? = some (memory.get (base + index)) := by
  rw [List.getElem?_take_of_lt inside, List.getElem?_drop,
    Bank.getElem?_toList memory (by omega)]

theorem length_take_drop (memory : Memory) {base length : Nat} (fits : base + length ≤ 65536) :
    ((memory.toList.drop base).take length).length = length := by
  rw [List.length_take, List.length_drop, Bank.length_toList]
  omega

theorem take_drop_store (memory : Memory) {base : Nat} {image : List UInt8}
    (fits : base + image.length ≤ 65536) :
    ((memory.store base image).toList.drop base).take image.length = image := by
  apply List.ext_getElem?
  intro index
  by_cases inside : index < image.length
  · rw [getElem?_take_drop _ fits inside, get_store_inside memory fits inside,
      List.getElem?_eq_getElem inside]
  · rw [List.getElem?_eq_none (by rw [length_take_drop _ fits]; omega),
      List.getElem?_eq_none (by omega)]

end Memory

/-! ## Ports -/

theorem byte_inside (byte : UInt8) : 0 ≤ (byte.toNat : Int) ∧ (byte.toNat : Int) < 256 := by
  have bound := byte.toNat_lt
  omega

theorem Ports.port_toNat (byte : UInt8) : Ports.port byte.toNat = .ok byte := by
  have inside := byte_inside byte
  have fits : 0 ≤ (byte.toNat : Int) ∧ (byte.toNat : Int) ≤ 0xFF := by omega
  rw [Ports.port, if_pos fits, byteOf_toNat]

theorem Ports.eq_toNat_of_port {number : Int} {named : UInt8}
    (checked : Ports.port number = .ok named) :
    number = named.toNat := by
  rw [Ports.port] at checked
  split at checked
  · cases checked
    rw [toNat_byteOf]
    omega
  · cases checked

theorem Ports.port_of_outside {number : Int} (outside : ¬ (0 ≤ number ∧ number < 256)) :
    Ports.port number = .error (.portOutOfBounds number) := by
  have refused : ¬ (0 ≤ number ∧ number ≤ 0xFF) := by omega
  rw [Ports.port, if_neg refused]

end Intel8085
