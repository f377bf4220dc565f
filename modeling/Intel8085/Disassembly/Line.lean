import Intel8085.InstructionSet.Table
import Intel8085.Machine.Config

/-!
# Disassembly

A byte image is read from its front as a sequence of lines.  A line is an instruction when its
opcode has a form and the image has all of its bytes; a byte without a form, and an instruction that
the end of the image cuts off, is a data line, which source text writes with `DB`.

`sweep` reads a whole image and `lineAt` a single place of it.  A place may be counted from behind
the image, where the bytes of an instruction are the slice between two such places.
-/

set_option autoImplicit false

namespace Intel8085.Disassembly

open Intel8085.Text Intel8085.Source

structure Line where
  address : Int
  raw : List UInt8
  text : String
  cycles : Int
  states : Int
  deriving DecidableEq, Repr

inductive Failure where
  | defect (defect : Defect)
  | outsideData
  deriving DecidableEq, Repr

def Line.hexText (line : Line) : String :=
  " ".intercalate (line.raw.map hexByte)

def padded (width : Int) (text : String) : String :=
  text ++ String.ofList (List.replicate (width.toNat - text.length) ' ')

def Line.display (line : Line) (width : Int) : String :=
  "$" ++ String.ofList (hexInteger 4 line.address) ++ ": " ++ padded width line.hexText ++ " " ++
    line.text

def dataLine (raw : List UInt8) (address : Int) : Line where
  address := address
  raw := raw
  text := "DB " ++ ",".intercalate (raw.map fun byte => String.ofList (hexLiteral 2 byte.toNat))
  cycles := 0
  states := 0

/-- The value of the immediate bytes of an instruction: there is one for one byte and for two. -/
def immediate (order : ByteOrder) (form : Form) (raw : List UInt8) : Except Failure (Option Int) :=
  match form.width with
  | 1 =>
      match raw[1]? with
      | some byte => .ok (some byte.toNat)
      | none => .error .outsideData
  | 2 => .ok (some (order.joinWord raw.tail).toNat)
  | _ => .ok none

def instructionLine (order : ByteOrder) (form : Form) (raw : List UInt8) (address : Int) :
    Except Failure Line := do
  let value ← immediate order form raw
  match form.text value with
  | .ok text => return { address, raw, text, cycles := form.cycles, states := form.states }
  | .error defect => .error (.defect defect)

def frontLine (table : OpcodeTable) (order : ByteOrder) (opcode : UInt8) (rest : List UInt8)
    (address : Int) : Except Failure Line :=
  match table.form? opcode with
  | none => .ok (dataLine [opcode] address)
  | some form =>
      let operands := rest.take form.width
      if operands.length < form.width then .ok (dataLine (opcode :: operands) address)
      else instructionLine order form (opcode :: operands) address

/-- The lines of an image behind those already `found`, which are in reverse; no more than `left`
of them. -/
def sweepFrom (table : OpcodeTable) (order : ByteOrder) (left : Option Nat) (found : List Line)
    (address : Int) : List UInt8 → Except Failure (List Line)
  | [] => .ok found.reverse
  | opcode :: rest =>
      match left with
      | some 0 => .ok found.reverse
      | _ =>
          match frontLine table order opcode rest address with
          | .error failure => .error failure
          | .ok line =>
              sweepFrom table order (left.map fun number => number - 1) (line :: found)
                (address + line.raw.length) (rest.drop (line.raw.length - 1))
termination_by bytes => bytes.length
decreasing_by
  rw [List.length_drop, List.length_cons]
  omega

/-- How many lines a limit allows: zero stands for no limit, and a limit below zero for one line. -/
def lineLimit (limit : Int) : Option Nat :=
  if limit = 0 then none else some (max 1 limit).toNat

def sweep (table : OpcodeTable) (order : ByteOrder) (limit : Int) (address : Int)
    (image : List UInt8) : Except Failure (List Line) :=
  sweepFrom table order (lineLimit limit) [] address image

/-- A place in a list of given size, counted from behind when it is below zero, and kept within the
list. -/
def place (size : Nat) (position : Int) : Nat :=
  min size (if position < 0 then position + size else position).toNat

def slice (image : List UInt8) (start stop : Int) : List UInt8 :=
  (image.take (place image.length stop)).drop (place image.length start)

/-- The line at a place that is counted from behind the image. -/
def lineBehind (table : OpcodeTable) (order : ByteOrder) (image : List UInt8) (offset address : Int) :
    Except Failure Line :=
  if offset + image.length < 0 then .error .outsideData
  else
    match image[(offset + image.length).toNat]? with
    | none => .error .outsideData
    | some opcode =>
        match table.form? opcode with
        | none => .ok (dataLine (slice image offset (offset + 1)) address)
        | some form =>
            if image.length < offset + form.length then
              .ok (dataLine (slice image offset image.length) address)
            else instructionLine order form (slice image offset (offset + form.length)) address

/-- The line at a place of an image, if the place is before the end. -/
def lineAt (table : OpcodeTable) (order : ByteOrder) (image : List UInt8) (offset address : Int) :
    Except Failure (Option Line) :=
  if offset < 0 then some <$> lineBehind table order image offset address
  else
    match image.drop offset.toNat with
    | [] => .ok none
    | opcode :: rest => some <$> frontLine table order opcode rest address

def toSource (table : OpcodeTable) (order : ByteOrder) (image : List UInt8) :
    Except Failure String :=
  return "\n".intercalate ((← sweep table order 0 0 image).map Line.text)

end Intel8085.Disassembly
