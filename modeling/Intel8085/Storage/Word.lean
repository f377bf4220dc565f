/-!
# Bytes and words

A byte holds an integer modulo 256 and a word an integer modulo 65536.  A word is made of a high
and a low byte, and both are had back from it (`highByte_joinBytes`, `lowByte_joinBytes`,
`joinBytes_split`).
-/

set_option autoImplicit false

namespace Intel8085

/-- The byte that an integer leaves modulo 256. -/
def byteOf (number : Int) : UInt8 :=
  UInt8.ofNat (number % 256).toNat

def wordOf (number : Int) : UInt16 :=
  UInt16.ofNat (number % 65536).toNat

def highByte (word : UInt16) : UInt8 :=
  UInt8.ofNat (word.toNat / 256)

def lowByte (word : UInt16) : UInt8 :=
  UInt8.ofNat (word.toNat % 256)

def joinBytes (high low : UInt8) : UInt16 :=
  UInt16.ofNat (high.toNat * 256 + low.toNat)

/-- The bytes that integers stand for, when each of them is the value of a byte. -/
def bytesOf? (numbers : List Int) : Option (List UInt8) :=
  if numbers.all fun number => 0 ≤ number && number ≤ 0xFF then some (numbers.map byteOf)
  else none

theorem toNat_byteOf (number : Int) : (byteOf number).toNat = (number % 256).toNat := by
  unfold byteOf
  rw [UInt8.toNat_ofNat']
  omega

theorem toNat_wordOf (number : Int) : (wordOf number).toNat = (number % 65536).toNat := by
  unfold wordOf
  rw [UInt16.toNat_ofNat']
  omega

theorem byteOf_toNat (byte : UInt8) : byteOf byte.toNat = byte := by
  apply UInt8.toNat_inj.1
  have bound := byte.toNat_lt
  rw [toNat_byteOf]
  omega

theorem wordOf_toNat (word : UInt16) : wordOf word.toNat = word := by
  apply UInt16.toNat_inj.1
  have bound := word.toNat_lt
  rw [toNat_wordOf]
  omega

theorem toNat_joinBytes (high low : UInt8) :
    (joinBytes high low).toNat = high.toNat * 256 + low.toNat := by
  have highBound := high.toNat_lt
  have lowBound := low.toNat_lt
  unfold joinBytes
  rw [UInt16.toNat_ofNat']
  omega

theorem toNat_highByte (word : UInt16) : (highByte word).toNat = word.toNat / 256 := by
  have bound := word.toNat_lt
  unfold highByte
  rw [UInt8.toNat_ofNat']
  omega

theorem toNat_lowByte (word : UInt16) : (lowByte word).toNat = word.toNat % 256 := by
  unfold lowByte
  rw [UInt8.toNat_ofNat']
  omega

theorem highByte_joinBytes (high low : UInt8) : highByte (joinBytes high low) = high := by
  apply UInt8.toNat_inj.1
  have lowBound := low.toNat_lt
  rw [toNat_highByte, toNat_joinBytes]
  omega

theorem lowByte_joinBytes (high low : UInt8) : lowByte (joinBytes high low) = low := by
  apply UInt8.toNat_inj.1
  have lowBound := low.toNat_lt
  rw [toNat_lowByte, toNat_joinBytes]
  omega

theorem joinBytes_split (word : UInt16) : joinBytes (highByte word) (lowByte word) = word := by
  apply UInt16.toNat_inj.1
  rw [toNat_joinBytes, toNat_highByte, toNat_lowByte]
  omega

end Intel8085
