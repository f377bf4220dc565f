import Intel8085.Shell.Switch
import Intel8085.Text.DecimalDigit

/-!
# Pieces of a command line

Each argument is a plain argument, the separator `--`, or an option.  Of an option's word any
beginning will do that belongs to no other option.  A value may follow an option behind an equals
sign, or directly behind the letter.  After the separator every argument is plain.  An argument that
looks like a negative number, or that is no option and has a space in it, is plain too.

All arguments are told apart before any option is obeyed, so an ambiguous option is refused even
where another one to its left asks for the version.
-/

set_option autoImplicit false

namespace Intel8085.Shell

open Intel8085.Text

/-- Why there are no options to work with: the arguments are refused, or they ask for the version or
for help. -/
inductive Early where
  | refused
  | showVersion
  | showHelp
  deriving DecidableEq, Repr

/-- What an argument is.  A text may be attached to an option, directly or behind an equals sign. -/
inductive Piece where
  | argument (text : String)
  | separator
  | option (switch : Switch) (isWord : Bool) (attached : Option (List Char))
  | unknownOption
  deriving DecidableEq, Repr

/-- The characters are decimal digits of any script. -/
def allDigits (text : List Char) : Bool :=
  text.all fun character => (decimalDigit? character).isSome

def withoutLineFeed (text : List Char) : List Char :=
  if text.getLast? == some '\n' then text.dropLast else text

def looksLikeNumber (behindDash : List Char) : Bool :=
  let text := withoutLineFeed behindDash
  let whole := text.takeWhile fun character => character != '.'
  match text.dropWhile fun character => character != '.' with
  | [] => allDigits whole && !whole.isEmpty
  | _ :: fraction => allDigits whole && allDigits fraction && !fraction.isEmpty

def beforeEquals (text : List Char) : List Char :=
  text.takeWhile fun character => character != '='

def afterEquals? (text : List Char) : Option (List Char) :=
  match text.dropWhile fun character => character != '=' with
  | [] => none
  | _ :: rest => some rest

/-- What an argument is that begins with a dash and is no exact spelling. -/
def pieceOfDash (argument : String) (text : List Char) : Except Early Piece :=
  let otherwise : Piece :=
    if looksLikeNumber text.tail || text.contains ' ' then .argument argument else .unknownOption
  if text.tail.head? == some '-' then
    match Switch.beginningWith (beforeEquals text) with
    | [] => .ok otherwise
    | [switch] => .ok (.option switch true (afterEquals? text))
    | _ => .error .refused
  else
    match text.tail.head?.bind Switch.ofLetter? with
    | some switch => .ok (.option switch false (some (text.drop 2)))
    | none => .ok otherwise

/-- What an argument is, when no `--` is before it. -/
def pieceOf (argument : String) : Except Early Piece :=
  let text := argument.toList
  let isWord := text.tail.head? == some '-'
  if text.head? != some '-' then .ok (.argument argument)
  else
    match Switch.ofSpelling? text with
    | some switch => .ok (.option switch isWord none)
    | none =>
        if text.length = 1 then .ok (.argument argument)
        else
          match Switch.ofSpelling? (beforeEquals text), afterEquals? text with
          | some switch, some attached => .ok (.option switch isWord (some attached))
          | _, _ => pieceOfDash argument text

def piecesOf : List String → Except Early (List Piece)
  | [] => .ok []
  | argument :: rest =>
      if argument = "--" then .ok (.separator :: rest.map Piece.argument)
      else do
        let piece ← pieceOf argument
        let pieces ← piecesOf rest
        return piece :: pieces

end Intel8085.Shell
