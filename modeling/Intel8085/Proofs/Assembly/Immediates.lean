import Intel8085.Assembly.Block
import Mathlib.Data.List.Basic

/-!
# The bytes of an immediate

A number that fits in one or two bytes is had back from its bytes in either order
(`joinWord_immediateBytes`), and bytes from the number that they stand for
(`immediateBytes_joinWord`).
-/

set_option autoImplicit false

namespace Intel8085.Assembly

theorem length_immediateBytes_eq (order : ByteOrder) (width value : Nat) :
    (immediateBytes order width value).length = if width = 1 then 1 else 2 := by
  rw [immediateBytes]
  split
  · rfl
  · cases order with
    | big => rfl
    | little => rfl

theorem length_immediateBytes {order : ByteOrder} {width value : Nat}
    (proper : width = 1 ∨ width = 2) : (immediateBytes order width value).length = width := by
  rw [length_immediateBytes_eq]
  rcases proper with rfl | rfl
  · rfl
  · rfl

theorem joinWord_singleton (order : ByteOrder) (byte : UInt8) :
    (order.joinWord [byte]).toNat = byte.toNat := by
  rw [ByteOrder.joinWord, toNat_joinBytes]
  simp

theorem immediateBytes_joinWord (order : ByteOrder) {bytes : List UInt8} {width : Nat}
    (proper : width = 1 ∨ width = 2) (complete : bytes.length = width) :
    (order.joinWord bytes).toNat < 256 ^ width ∧
      immediateBytes order width (order.joinWord bytes).toNat = bytes := by
  rcases proper with rfl | rfl
  · obtain ⟨byte, rfl⟩ := List.length_eq_one_iff.1 complete
    have small := byte.toNat_lt
    rw [joinWord_singleton]
    refine ⟨by omega, ?_⟩
    rw [immediateBytes, if_pos rfl, UInt8.ofNat_toNat]
  · obtain ⟨first, second, rfl⟩ := List.length_eq_two.1 complete
    refine ⟨(order.joinWord [first, second]).toNat_lt, ?_⟩
    have notOne : ¬ (2 : Nat) = 1 := by decide
    rw [immediateBytes, if_neg notOne, UInt16.ofNat_toNat]
    cases order with
    | big => rw [ByteOrder.joinWord, ByteOrder.splitWord, highByte_joinBytes, lowByte_joinBytes]
    | little => rw [ByteOrder.joinWord, ByteOrder.splitWord, highByte_joinBytes, lowByte_joinBytes]

theorem joinWord_immediateBytes {order : ByteOrder} {width value : Nat}
    (proper : width = 1 ∨ width = 2) (narrow : value < 256 ^ width) :
    (order.joinWord (immediateBytes order width value)).toNat = value := by
  rcases proper with rfl | rfl
  · rw [immediateBytes, if_pos rfl, joinWord_singleton, UInt8.toNat_ofNat']
    exact Nat.mod_eq_of_lt narrow
  · have notOne : ¬ (2 : Nat) = 1 := by decide
    rw [immediateBytes, if_neg notOne, ByteOrder.joinWord_splitWord, UInt16.toNat_ofNat']
    exact Nat.mod_eq_of_lt narrow

end Intel8085.Assembly
