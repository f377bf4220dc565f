import Intel8085.Text.Hexadecimal

/-!
# Assembly errors

The assembler refuses a source text for the first cause that it meets, and says on which line.  A
cause belongs to one of eight kinds and has one wording.
-/

set_option autoImplicit false

namespace Intel8085.Assembly

open Intel8085.Text

inductive ErrorKind where
  | invalidLabel
  | reservedLabel
  | duplicateLabel
  | undefinedLabel
  | unknownMnemonic
  | invalidNumericLiteral
  | dataOutOfRange
  | unresolvedLabel
  deriving DecidableEq, Repr

def ErrorKind.description : ErrorKind → String
  | .invalidLabel => "invalid label"
  | .reservedLabel => "reserved label"
  | .duplicateLabel => "duplicate label"
  | .undefinedLabel => "undefined label"
  | .unknownMnemonic => "unknown mnemonic or syntax"
  | .invalidNumericLiteral => "invalid numeric literal"
  | .dataOutOfRange => "data out of range"
  | .unresolvedLabel => "unresolved label"

inductive Cause where
  | invalidLabel (written : String)
  | reservedLabel (written : String)
  | duplicateLabel (written : String) (firstLine : Nat)
  | unknownMnemonic (mnemonic : String)
  | malformedOperands (operands : List String)
  | undefinedLabel (name : String)
  | invalidNumber (text : String)
  | noForm (mnemonic : String) (operands : List String)
  | noData
  | programTooLong
  | valueTooWide (value width : Nat)
  | byteTooWide (value : Nat)
  | unresolvedLabel (name : String)
  | addressTooWide (name : String) (address width : Nat)
  deriving DecidableEq, Repr

namespace Cause

def kind : Cause → ErrorKind
  | .invalidLabel _ => .invalidLabel
  | .reservedLabel _ => .reservedLabel
  | .duplicateLabel _ _ => .duplicateLabel
  | .unknownMnemonic _ => .unknownMnemonic
  | .malformedOperands _ => .unknownMnemonic
  | .undefinedLabel _ => .undefinedLabel
  | .invalidNumber _ => .invalidNumericLiteral
  | .noForm _ _ => .unknownMnemonic
  | .noData => .unknownMnemonic
  | .programTooLong => .dataOutOfRange
  | .valueTooWide _ _ => .dataOutOfRange
  | .byteTooWide _ => .dataOutOfRange
  | .unresolvedLabel _ => .unresolvedLabel
  | .addressTooWide _ _ _ => .dataOutOfRange

def message : Cause → String
  | .invalidLabel written => "Invalid label name '" ++ written ++ "'"
  | .reservedLabel written => "'" ++ written ++ "' is a reserved word"
  | .duplicateLabel written firstLine =>
      "Label '" ++ written ++ "' already defined on line " ++ toString firstLine
  | .unknownMnemonic mnemonic => "Unknown mnemonic '" ++ mnemonic ++ "'"
  | .malformedOperands operands =>
      "Malformed operand list '" ++ ", ".intercalate operands ++ "'"
  | .undefinedLabel name => "Undefined label '" ++ name ++ "'"
  | .invalidNumber text => "Invalid number '" ++ text ++ "'"
  | .noForm mnemonic operands =>
      "No form of " ++ mnemonic ++ " takes operands '" ++ ", ".intercalate operands ++ "'"
  | .noData => "DB needs at least one byte"
  | .programTooLong => "Program does not fit in 64K"
  | .valueTooWide value width =>
      "Value " ++ toString value ++ " does not fit in " ++ toString width ++ " byte(s)"
  | .byteTooWide value => "Value " ++ toString value ++ " does not fit in a byte"
  | .unresolvedLabel name => "Label '" ++ name ++ "' has no address"
  | .addressTooWide name address width =>
      "Address of '" ++ name ++ "' (" ++ hexText 4 address ++ "H) does not fit in " ++
        toString width ++ " byte(s)"

end Cause

structure SourceError where
  line : Nat
  cause : Cause
  deriving DecidableEq, Repr

def SourceError.message (error : SourceError) : String :=
  "Line " ++ toString error.line ++ ": " ++ error.cause.message

/-- A reason for which there is no program: the source text is refused, it holds a number of more
decimal digits than are read or written, or it uses a form of an injected table that has no place
for its operand. -/
inductive Failure where
  | refused (error : SourceError)
  | numberTooLong
  | operandWithoutValue
  | patchOutsideProgram
  deriving DecidableEq, Repr

end Intel8085.Assembly
