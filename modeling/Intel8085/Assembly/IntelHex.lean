import Intel8085.Text.Hexadecimal
import Intel8085.Storage.Word

/-!
# Intel HEX

A byte image as lines of text: data records of at most a given size, each with its address and a
check sum, and one record that marks the end.  The bytes of a record together with its check sum
add up to zero modulo 256.

A record holds at most 255 bytes.  A record size below zero gives no data record.
-/

set_option autoImplicit false

namespace Intel8085.Assembly.IntelHex

open Intel8085.Text

inductive Failure where
  | emptyRecords
  | recordTooLong
  deriving DecidableEq, Repr

def checksum (bytes : List UInt8) : UInt8 :=
  0 - bytes.foldl (fun sum byte => sum + byte) 0

/-- The bytes of a data record before its check sum: count, address, type and data. -/
def recordBytes (address : Int) (chunk : List UInt8) : List UInt8 :=
  let word := wordOf address
  [UInt8.ofNat chunk.length, highByte word, lowByte word, 0] ++ chunk

def dataRecord (address : Int) (chunk : List UInt8) : String :=
  let bytes := recordBytes address chunk
  ":" ++ String.join (bytes.map hexByte) ++ hexByte (checksum bytes)

def endRecord : String := ":00000001FF"

/-- The lines of the data records behind those already `written`, which are in reverse; each record
holds `size + 1` bytes while there are so many. -/
def dataRecords (size : Nat) (written : List String) (address : Int) : List UInt8 → List String
  | [] => written.reverse
  | byte :: rest =>
      dataRecords size (dataRecord address (byte :: rest.take size) :: written)
        (address + (size + 1)) (rest.drop size)
termination_by image => image.length
decreasing_by
  rw [List.length_drop, List.length_cons]
  omega

def text (lines : List String) : String :=
  String.join (lines.map fun line => line ++ "\n")

def write (image : List UInt8) (start recordSize : Int) : Except Failure String :=
  if recordSize = 0 then .error .emptyRecords
  else if recordSize < 0 then .ok (text [endRecord])
  else if 255 < recordSize ∧ 255 < image.length then .error .recordTooLong
  else .ok (text (dataRecords (recordSize.toNat - 1) [] start image ++ [endRecord]))

end Intel8085.Assembly.IntelHex
