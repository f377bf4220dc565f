import Intel8085.Text.Blank
import Intel8085.Text.Capital
import Intel8085.Text.Integer
import Intel8085.Text.Quoted

/-!
# Numbers on the command line

A number is given in decimal, or in hexadecimal with `0x` or a dollar sign in front or the letter
`H` behind.  The forms are told apart in the order mark, letter, dollar sign, so `0x1FH` is no
number.  A range is two numbers with a colon between.
-/

set_option autoImplicit false

namespace Intel8085.Shell

open Intel8085.Text

def hasMark : List Char → Bool
  | '0' :: letter :: _ => letter == 'x' || letter == 'X'
  | _ => false

def hasLetter (text : List Char) : Bool :=
  (capitals text).getLast? == some 'H'

def integerArgument? (argument : List Char) : Option Int :=
  let text := trim argument
  if hasMark text then integer? .sixteen text
  else if hasLetter text then integer? .sixteen text.dropLast
  else if text.head? == some '$' then integer? .sixteen text.tail
  else integer? .ten text

inductive RangeError where
  | noColon
  | badRange (argument : String)
  deriving DecidableEq, Repr

def RangeError.message : RangeError → String
  | .noColon => "expected START:LEN"
  | .badRange argument => "bad range " ++ Quoted.encode argument

/-- The start and the length that an argument gives, the first colon dividing it. -/
def rangeArgument (argument : String) : Except RangeError (Int × Int) :=
  let text := argument.toList
  match text.dropWhile fun character => character != ':' with
  | [] => .error .noColon
  | _ :: behind =>
      let front := text.takeWhile fun character => character != ':'
      match integerArgument? front, integerArgument? behind with
      | some start, some length => .ok (start, length)
      | _, _ => .error (.badRange argument)

end Intel8085.Shell
