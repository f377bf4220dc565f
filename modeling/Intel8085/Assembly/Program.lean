import Intel8085.Assembly.Image

/-!
# Programs

A source text is assembled in three passes.  The first declares the labels of all statements, the
second lays out a block for each statement that emits bytes and gives every label the address of the
next byte, and the third puts the addresses into the bytes that refer to them, in the code and in the
listing beside it.  The text is refused at the first error of the first pass that has one, so no part
of a program is ever given.
-/

set_option autoImplicit false

namespace Intel8085.Assembly

open Intel8085.Text Intel8085.Source

structure PlacedBlock where
  address : Nat
  block : Block
  deriving DecidableEq, Repr

structure Program where
  code : List UInt8
  listing : List ListingRecord
  blocks : List PlacedBlock
  labels : List (String × Nat)
  deriving DecidableEq, Repr

/-! ## Declarations -/

def declare (table : OpcodeTable) (declared : Declarations) (numbered : NumberedStatement) :
    Except Failure Declarations :=
  match numbered.statement.label with
  | none => .ok declared
  | some label =>
      if !isIdentifier label.name then refuse numbered.line (.invalidLabel label.written)
      else if isReserved table label.name then refuse numbered.line (.reservedLabel label.written)
      else
        match declared.lookup label.name with
        | some firstLine => refuse numbered.line (.duplicateLabel label.written firstLine)
        | none => .ok ((label.name, numbered.line) :: declared)

def declarations (table : OpcodeTable) (numbered : List NumberedStatement) :
    Except Failure Declarations :=
  numbered.foldlM (declare table) []

/-! ## Layout -/

/-- A program under way: the bytes laid out so far, the label that the next block shows, and the
blocks and addresses in reverse. -/
structure Layout where
  size : Nat
  pending : String
  blocks : List PlacedBlock
  labels : List (String × Nat)
  deriving DecidableEq, Repr

/-- The layout with the label of a statement, if it defines one, at the next byte. -/
def Layout.define (layout : Layout) : Option Label → Layout
  | none => layout
  | some label =>
      { layout with
        pending := label.written
        labels := (label.name, layout.size) :: layout.labels }

def Layout.append (layout : Layout) (block : Block) : Layout :=
  { layout with
    size := layout.size + block.bytes.length
    pending := ""
    blocks := { address := layout.size, block } :: layout.blocks }

def lay (table : OpcodeTable) (order : ByteOrder) (declared : Declarations) (layout : Layout)
    (numbered : NumberedStatement) : Except Failure Layout :=
  let defined := layout.define numbered.statement.label
  match numbered.statement.instruction with
  | none => .ok defined
  | some instruction => do
      let block ← blockOf table order declared numbered.line defined.size defined.pending instruction
      return defined.append block

def layoutOf (table : OpcodeTable) (order : ByteOrder) (declared : Declarations)
    (numbered : List NumberedStatement) : Except Failure Layout :=
  numbered.foldlM (lay table order declared) { size := 0, pending := "", blocks := [], labels := [] }

/-! ## Addresses -/

/-- The address that a reference stands for, in the bytes that it has room for. -/
def addressBytes (order : ByteOrder) (labels : List (String × Nat)) (line : Nat)
    (reference : Reference) : Except Failure (List UInt8) :=
  match labels.lookup reference.name with
  | none => refuse line (.unresolvedLabel reference.name)
  | some address =>
      if address < 256 ^ reference.width then
        .ok (immediateBytes order reference.width address)
      else refuse line (.addressTooWide reference.name address reference.width)

def patch (order : ByteOrder) (labels : List (String × Nat)) (placed : PlacedBlock) (image : Image)
    (reference : Reference) : Except Failure Image := do
  let bytes ← addressBytes order labels placed.block.line reference
  image.overwrite (placed.address + reference.position) bytes

def patchBlock (order : ByteOrder) (labels : List (String × Nat)) (image : Image)
    (placed : PlacedBlock) : Except Failure Image :=
  placed.block.references.foldlM (patch order labels placed) image

/-- The program of a layout: the bytes of all blocks are emitted, and then the addresses of labels
put in. -/
def link (order : ByteOrder) (layout : Layout) : Except Failure Program := do
  let blocks := layout.blocks.reverse
  let labels := layout.labels.reverse
  let emitted := (blocks.map PlacedBlock.block).foldl Image.emitBlock .empty
  let image ← blocks.foldlM (patchBlock order labels) emitted
  return { code := image.code.toList, listing := image.listing.toList, blocks, labels }

def programOf (table : OpcodeTable) (order : ByteOrder) (numbered : List NumberedStatement) :
    Except Failure Program := do
  let declared ← declarations table numbered
  let layout ← layoutOf table order declared numbered
  link order layout

def assemble (table : OpcodeTable) (order : ByteOrder) (source : List Char) :
    Except Failure Program :=
  programOf table order (statements source)

def Program.referenceCount (program : Program) : Nat :=
  (program.blocks.map fun placed => placed.block.references.length).sum

end Intel8085.Assembly
