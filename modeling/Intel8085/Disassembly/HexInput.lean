import Intel8085.Disassembly.Line
import Intel8085.Text.Blank
import Intel8085.Text.Hexadecimal

/-!
# Bytes as hexadecimal text

An image may be given as pairs of hexadecimal digits of either case.  The mark `0x` may stand before
digits, and blanks, commas and semicolons anywhere between them.  Marks are taken out before the
separators, so a mark that a separator cuts apart is none; what taking out one mark leaves is not
searched again.
-/

set_option autoImplicit false

namespace Intel8085.Disassembly

open Intel8085.Text

/-- A text read from its end, and whether its first character is the letter of a mark. -/
structure MarkScan where
  kept : List Char
  atLetter : Bool

/-- One character further to the front: a zero before the letter of a mark goes with that letter. -/
def MarkScan.add (letter : Char) (character : Char) (scan : MarkScan) : MarkScan :=
  if character == '0' && scan.atLetter then { kept := scan.kept.tail, atLetter := false }
  else { kept := character :: scan.kept, atLetter := character == letter }

/-- The text without the marks that a zero and the given letter form. -/
def eraseMarks (letter : Char) (text : List Char) : List Char :=
  (text.foldr (MarkScan.add letter) { kept := [], atLetter := false }).kept

def isSeparator (character : Char) : Bool :=
  isBlank character || character == ',' || character == ';'

def digitOfEitherCase? (character : Char) : Option Nat :=
  hexDigitValue? character.toUpper

/-- The bytes that pairs of digits stand for, behind those already `read`, which are in reverse. -/
def readPairs (read : List UInt8) : List Char → Option (List UInt8)
  | [] => some read.reverse
  | [_] => none
  | high :: low :: rest =>
      match digitOfEitherCase? high, digitOfEitherCase? low with
      | some upper, some lower => readPairs (UInt8.ofNat (16 * upper + lower) :: read) rest
      | _, _ => none

def bytesOfText? (text : List Char) : Option (List UInt8) :=
  readPairs [] ((eraseMarks 'X' (eraseMarks 'x' text)).filter fun character => !isSeparator character)

/-- The lines of an image that is given as text, if the text is that of an image. -/
def sweepText? (table : OpcodeTable) (order : ByteOrder) (limit address : Int) (text : List Char) :
    Option (Except Failure (List Line)) :=
  (bytesOfText? text).map (sweep table order limit address)

end Intel8085.Disassembly
