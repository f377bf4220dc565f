/-!
# Lines of a text

A line ends at a line feed, a carriage return, the pair of both, a vertical tab, a form feed, an
information separator of the file, group or record kind, a next-line control, or one of the two
Unicode separators of lines and paragraphs.  A break at the very end of the text opens no further
line, so the empty text has no line at all.  `lines_cons` says how a character changes the lines of
the text that it is put before.
-/

set_option autoImplicit false

namespace Intel8085.Text

def isLineBreak (character : Char) : Bool :=
  let code := character.toNat
  (0x0A ≤ code && code ≤ 0x0D) || (0x1C ≤ code && code ≤ 0x1E) || code == 0x85 ||
    code == 0x2028 || code == 0x2029

/-- The lines with one more character at the head of the first of them. -/
def widenFirst (character : Char) : List (List Char) → List (List Char)
  | [] => [[character]]
  | line :: others => (character :: line) :: others

/-- The lines of the rest of a text, and whether that rest begins with a line feed. -/
structure LineScan where
  lines : List (List Char)
  atLineFeed : Bool

/-- One character further to the front.  A carriage return before a line feed belongs to its
break. -/
def LineScan.add (character : Char) (scan : LineScan) : LineScan where
  lines :=
    if character == '\r' && scan.atLineFeed then scan.lines
    else if isLineBreak character then [] :: scan.lines
    else widenFirst character scan.lines
  atLineFeed := character == '\n'

def scanLines (text : List Char) : LineScan :=
  text.foldr LineScan.add { lines := [], atLineFeed := false }

def lines (text : List Char) : List (List Char) :=
  (scanLines text).lines

theorem scanLines_atLineFeed (text : List Char) :
    (scanLines text).atLineFeed = (text.head? == some '\n') := by
  cases text with
  | nil => rfl
  | cons character rest => simp [scanLines, LineScan.add]

theorem lines_cons (character : Char) (rest : List Char) :
    lines (character :: rest) =
      if character == '\r' && rest.head? == some '\n' then lines rest
      else if isLineBreak character then [] :: lines rest
      else widenFirst character (lines rest) := by
  rw [← scanLines_atLineFeed]
  rfl

end Intel8085.Text
