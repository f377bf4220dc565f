import Intel8085.Text.Quoted

/-!
# Values of a host

Where a host has to give a name or a limit, it may give any plain value.  Only a text can be the name
of anything, and only a number or a truth value, which counts as one or zero, can be a limit; a
message shows whatever was given.
-/

set_option autoImplicit false

namespace Intel8085

open Intel8085.Text

/-- A value that a host gives.  One that has parts is known by the way it is shown alone. -/
inductive HostValue where
  | text (value : String)
  | number (value : Int)
  | truth (value : Bool)
  | nothing
  | compound (shown : String)
  deriving DecidableEq, Repr

namespace HostValue

def text? : HostValue → Option String
  | .text value => some value
  | _ => none

def number? : HostValue → Option Int
  | .number value => some value
  | .truth value => some value.toInt
  | _ => none

def display : HostValue → String
  | .text value => Quoted.encode value
  | .number value => toString value
  | .truth true => "True"
  | .truth false => "False"
  | .nothing => "None"
  | .compound shown => shown

end HostValue

end Intel8085
