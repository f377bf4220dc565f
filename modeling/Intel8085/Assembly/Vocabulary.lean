import Intel8085.InstructionSet.Table

/-!
# Words of the assembly language

Some words always name a register, a pair or the memory operand.  These words, the mnemonics of the
table and a few others cannot be labels.  A label is an identifier: capital letters, digits and
underscores, with no digit first.
-/

set_option autoImplicit false

namespace Intel8085.Assembly

/-- The operands that always name a register, a pair or the memory operand. -/
def registerWords : List String :=
  ["A", "B", "C", "D", "E", "H", "L", "M", "SP", "PSW"]

def dataDirective : String := "DB"

/-- The words other than mnemonics that cannot be labels. -/
def reservedWords : List String :=
  registerWords ++ ["F", Token.anyImmediate, dataDirective]

def isIdentifierStart (character : Char) : Bool :=
  ('A' ≤ character && character ≤ 'Z') || character == '_'

def isIdentifierPart (character : Char) : Bool :=
  isIdentifierStart character || ('0' ≤ character && character ≤ '9')

def isIdentifier (text : String) : Bool :=
  match text.toList with
  | [] => false
  | first :: rest => isIdentifierStart first && rest.all isIdentifierPart

def isRegisterWord (operand : String) : Bool :=
  registerWords.contains operand

def isReserved (table : OpcodeTable) (name : String) : Bool :=
  reservedWords.contains name || table.hasMnemonic name

end Intel8085.Assembly
