import Intel8085.Assembly.Listing

/-!
# Outcomes of assembly

An outcome holds the program of a source text, or the error for which the text is refused; the code
and the listing of a refused text are empty.  The other failures of assembly have no outcome.
-/

set_option autoImplicit false

namespace Intel8085.Assembly

structure Outcome where
  program : Option Program
  error : Option SourceError
  deriving DecidableEq, Repr

namespace Outcome

def ok (outcome : Outcome) : Bool :=
  outcome.error.isNone

def code (outcome : Outcome) : List UInt8 :=
  match outcome.program with
  | some program => program.code
  | none => []

def listing (outcome : Outcome) : List ListingRecord :=
  match outcome.program with
  | some program => program.listing
  | none => []

end Outcome

def outcomeOf (table : OpcodeTable) (order : ByteOrder) (source : List Char) :
    Except Failure Outcome :=
  match assemble table order source with
  | .ok program => .ok { program := some program, error := none }
  | .error (.refused error) => .ok { program := none, error := some error }
  | .error failure => .error failure

end Intel8085.Assembly
