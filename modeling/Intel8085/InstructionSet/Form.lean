import Intel8085.Processor.Operation
import Intel8085.Source.Literal

/-!
# Instruction forms

A form is a pattern of tokens, a mnemonic before its operands, with the machine cycles and states
that data sheets give for it.  An operand token is spelled out in source text unless it is a
placeholder: `D8` stands for one immediate byte and `D16` for two.  Two forms that differ only in
placeholders would look alike in source text, so both placeholders collapse to one token in the
`signature`.
-/

set_option autoImplicit false

namespace Intel8085

open Intel8085.Source

namespace Token

def byte : String := "D8"

def word : String := "D16"

/-- What a placeholder collapses to in a signature. -/
def anyImmediate : String := "DATA"

def width (token : String) : Nat :=
  if token == byte then 1 else if token == word then 2 else 0

def isPlaceholder (token : String) : Bool :=
  token == byte || token == word

def collapse (token : String) : String :=
  if isPlaceholder token then anyImmediate else token

end Token

def signatureOf (tokens : List String) : List String :=
  tokens.map Token.collapse

def widthOf (operands : List String) : Nat :=
  (operands.map Token.width).sum

/-- Whether the immediate bytes of operands have a value: there are one or two of them. -/
def hasImmediate (operands : List String) : Bool :=
  widthOf operands == 1 || widthOf operands == 2

def operandText (value : Int) (token : String) : String :=
  if token == Token.byte then String.ofList (hexLiteral 2 value)
  else if token == Token.word then String.ofList (hexLiteral 4 value)
  else token

def filledText (mnemonic : String) (operands : List String) (value : Int) : String :=
  if operands.isEmpty then mnemonic
  else mnemonic ++ " " ++ ",".intercalate (operands.map (operandText value))

/-- A pattern as text.  A placeholder needs a value, and a pattern a mnemonic. -/
def patternText (tokens : List String) (value : Option Int) : Except Defect String :=
  if value.isNone && tokens.tail.any Token.isPlaceholder then .error .missingImmediate
  else
    match tokens with
    | [] => .error .missingToken
    | mnemonic :: operands => .ok (filledText mnemonic operands (value.getD 0))

/-- A pattern with its timing, and the signature, width and operation that its tokens stand for. -/
structure Form where
  mnemonic : String
  operands : List String
  cycles : Int
  states : Int
  signature : List String := signatureOf (mnemonic :: operands)
  width : Nat := widthOf operands
  operation : Operation := Operation.ofTokens mnemonic operands (hasImmediate operands)
  signature_eq : signature = signatureOf (mnemonic :: operands) := by rfl
  width_eq : width = widthOf operands := by rfl
  operation_eq : operation = Operation.ofTokens mnemonic operands (hasImmediate operands) := by rfl

namespace Form

def ofPattern (mnemonic : String) (operands : List String) (cycles states : Int) : Form where
  mnemonic := mnemonic
  operands := operands
  cycles := cycles
  states := states

def tokens (form : Form) : List String :=
  form.mnemonic :: form.operands

def length (form : Form) : Nat :=
  1 + form.width

/-- The operand tokens that source text spells out. -/
def literals (form : Form) : List String :=
  form.operands.filter fun token => !Token.isPlaceholder token

def text (form : Form) (value : Option Int) : Except Defect String :=
  patternText form.tokens value

end Form

end Intel8085
