import Intel8085.Text.Blank
import Intel8085.Text.Capital
import Intel8085.Text.LineBreak

/-!
# Statements

A line of source text is a label, an instruction or both; what follows a semicolon is a comment.  A
label is a first word that ends with a colon.  Operands are separated by commas.  Labels, mnemonics
and operands count in capitals, and a label is shown as it was written.
-/

set_option autoImplicit false

namespace Intel8085.Source

open Intel8085.Text

/-- The definition of a label, as it was written. -/
structure Label where
  written : String
  deriving DecidableEq, Repr

def Label.name (label : Label) : String :=
  upperCase label.written

/-- A mnemonic with its operands, in capitals. -/
structure Instruction where
  mnemonic : String
  operands : List String
  deriving DecidableEq, Repr

structure Statement where
  label : Option Label
  instruction : Option Instruction
  deriving DecidableEq, Repr

structure NumberedStatement where
  line : Nat
  statement : Statement
  deriving DecidableEq, Repr

def codeOf (line : List Char) : List Char :=
  trim (line.takeWhile fun character => character != ';')

def splitAtCommas (text : List Char) : List (List Char) :=
  text.foldr (fun character parts =>
    if character == ',' then [] :: parts else widenFirst character parts) [[]]

def capitalText (text : List Char) : String :=
  String.ofList (capitals text)

def operandsOf (text : List Char) : List String :=
  if text.isEmpty then [] else (splitAtCommas text).map fun part => capitalText (trim part)

def instructionOf (text : List Char) : Instruction where
  mnemonic := capitalText (word text)
  operands := operandsOf (afterWord text)

def instructionOf? (text : List Char) : Option Instruction :=
  if text.isEmpty then none else some (instructionOf text)

/-- The statement of a line, unless the line holds only blanks and a comment. -/
def statementOf? (line : List Char) : Option Statement :=
  let code := codeOf line
  if code.isEmpty then none
  else if (word code).getLast? == some ':' then
    some
      { label := some { written := String.ofList (word code).dropLast }
        instruction := instructionOf? (afterWord code) }
  else some { label := none, instruction := some (instructionOf code) }

/-- The statements of a source text with their line numbers, counted from one. -/
def statements (source : List Char) : List NumberedStatement :=
  (lines source).zipIdx.filterMap fun (line, index) =>
    (statementOf? line).map fun statement => { line := index + 1, statement }

end Intel8085.Source
