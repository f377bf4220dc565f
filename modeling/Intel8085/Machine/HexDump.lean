import Intel8085.Machine.Memory

/-!
# Hex dumps

A stretch of memory as rows of up to sixteen bytes.  A row has its address, its bytes in
hexadecimal, and its bytes as characters, where a point stands for a byte that is no printable ASCII
character.  The stretch ends at the end of memory at the latest.
-/

set_option autoImplicit false

namespace Intel8085.HexDump

open Intel8085.Text

def rowLength : Nat := 16

def columnWidth : Nat := 47

def character (byte : UInt8) : Char :=
  if 0x20 ≤ byte.toNat && byte.toNat < 0x7F then Char.ofNat byte.toNat else '.'

def hexColumn (bytes : List UInt8) : String :=
  let text := " ".intercalate (bytes.map hexByte)
  text ++ String.ofList (List.replicate (columnWidth - text.length) ' ')

def row (address : Nat) (bytes : List UInt8) : String :=
  hexText 4 address ++ "  " ++ hexColumn bytes ++ "  " ++ String.ofList (bytes.map character)

def rows (address : Nat) : List UInt8 → List String
  | [] => []
  | byte :: rest =>
      row address (byte :: rest.take (rowLength - 1)) ::
        rows (address + rowLength) (rest.drop (rowLength - 1))
termination_by bytes => bytes.length
decreasing_by
  rw [List.length_drop, List.length_cons]
  omega

/-- The dump of up to `length` bytes from an integer address on. -/
def dump (memory : Memory) (start length : Int) : Except Fault String := do
  let first ← Memory.address start
  let bytes := (memory.toList.drop first.toNat).take length.toNat
  return "\n".intercalate (rows first.toNat bytes)

end Intel8085.HexDump
