import Intel8085.Assembly.Block

/-!
# Images

An image is a program under way: its code and, in a list of its own, the listing.  A byte is emitted
together with its record, and a byte that is replaced later has its value replaced in both lists.

The record of the first byte of a block carries the label, the text, the number of bytes and the
timing of the block; the records of its other bytes carry their address and value alone.
-/

set_option autoImplicit false

namespace Intel8085.Assembly

open Intel8085.Text

structure ListingRecord where
  address : String
  label : String
  text : String
  hexCode : String
  byteCount : Nat
  cycles : Int
  states : Int
  line : Nat
  deriving DecidableEq, Repr

/-- The record with the value of a byte in place of the one that it shows. -/
def ListingRecord.fill (record : ListingRecord) (byte : UInt8) : ListingRecord :=
  { record with hexCode := hexByte byte }

structure Image where
  code : Array UInt8
  listing : Array ListingRecord
  deriving DecidableEq, Repr

namespace Image

def empty : Image :=
  { code := #[], listing := #[] }

def emit (image : Image) (byte : UInt8) (record : ListingRecord) : Image :=
  { code := image.code.push byte, listing := image.listing.push record }

/-- The first byte of a block, with a record that shows the block. -/
def emitFirst (block : Block) (image : Image) (byte : UInt8) : Image :=
  image.emit byte
    { address := hexText 4 image.code.size
      label := block.label
      text := block.text
      hexCode := hexByte byte
      byteCount := block.size
      cycles := block.cycles
      states := block.states
      line := block.line }

/-- A byte behind the first of a block. -/
def emitNext (line : Nat) (image : Image) (byte : UInt8) : Image :=
  image.emit byte
    { address := hexText 4 image.code.size
      label := ""
      text := ""
      hexCode := hexByte byte
      byteCount := 0
      cycles := 0
      states := 0
      line }

def emitBlock (image : Image) (block : Block) : Image :=
  match block.bytes with
  | [] => image
  | first :: rest => rest.foldl (emitNext block.line) (emitFirst block image first)

def replace (image : Image) (position : Nat) (byte : UInt8) : Except Failure Image :=
  match image.listing[position]? with
  | none => .error .patchOutsideProgram
  | some record =>
      if position < image.code.size then
        .ok
          { code := image.code.setIfInBounds position byte
            listing := image.listing.setIfInBounds position (record.fill byte) }
      else .error .patchOutsideProgram

def overwrite (image : Image) (position : Nat) : List UInt8 → Except Failure Image
  | [] => .ok image
  | byte :: rest => do
      let replaced ← image.replace position byte
      replaced.overwrite (position + 1) rest

end Image

end Intel8085.Assembly
