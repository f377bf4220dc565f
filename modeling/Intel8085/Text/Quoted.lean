import Intel8085.Text.Hexadecimal
import Intel8085.Text.Printable

/-!
# Quoted text

Messages show a text they object to between quotes.  The quotes are single ones unless the text
holds a single quote and no double one.  A backslash stands before the enclosing quote and before
another backslash; line feed, carriage return and tab have letters of their own, and every other
character that is not printable is given by its code point.
-/

set_option autoImplicit false

namespace Intel8085.Text.Quoted

def enclosing (text : List Char) : Char :=
  if text.contains '\'' && !text.contains '"' then '"' else '\''

/-- A code point in small hexadecimal digits, after a backslash and the letter for their count. -/
def codePoint (code : Nat) : List Char :=
  let (letter, width) := if code ≤ 0xFF then ('x', 2) else if code ≤ 0xFFFF then ('u', 4) else ('U', 8)
  '\\' :: letter :: (hexDigits width code).map Char.toLower

def character (quote : Char) (c : Char) : List Char :=
  if c == quote || c == '\\' then ['\\', c]
  else if c == '\n' then ['\\', 'n']
  else if c == '\r' then ['\\', 'r']
  else if c == '\t' then ['\\', 't']
  else if isPrintable c then [c]
  else codePoint c.toNat

def encode (text : String) : String :=
  let quote := enclosing text.toList
  String.ofList (quote :: text.toList.flatMap (character quote) ++ [quote])

end Intel8085.Text.Quoted
