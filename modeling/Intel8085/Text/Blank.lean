/-!
# Blank characters

A character is blank when Unicode calls it white space or when it is one of the four
information separators `U+001C` to `U+001F`.  Source text is trimmed and cut into words at blanks,
and no blank stands in a word (`not_isBlank_of_mem_word`).
-/

set_option autoImplicit false

namespace Intel8085.Text

/-- The white space of Unicode, and the information separators. -/
def isBlank (character : Char) : Bool :=
  let code := character.toNat
  (0x09 ≤ code && code ≤ 0x0D) || (0x1C ≤ code && code ≤ 0x20) || code == 0x85 || code == 0xA0 ||
    code == 0x1680 || (0x2000 ≤ code && code ≤ 0x200A) || code == 0x2028 || code == 0x2029 ||
    code == 0x202F || code == 0x205F || code == 0x3000

def trimStart (text : List Char) : List Char :=
  text.dropWhile isBlank

def trimEnd (text : List Char) : List Char :=
  (text.reverse.dropWhile isBlank).reverse

def trim (text : List Char) : List Char :=
  trimEnd (trimStart text)

def word (text : List Char) : List Char :=
  text.takeWhile fun character => !isBlank character

/-- What follows the first word, without the blanks between. -/
def afterWord (text : List Char) : List Char :=
  trimStart (text.dropWhile fun character => !isBlank character)

theorem not_isBlank_of_mem_word {text : List Char} {character : Char}
    (member : character ∈ word text) : isBlank character = false := by
  have passes := List.all_eq_true.1 List.all_takeWhile character member
  simpa using passes

end Intel8085.Text
