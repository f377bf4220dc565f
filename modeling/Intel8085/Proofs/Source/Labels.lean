import Intel8085.Proofs.Text.Cutting
import Intel8085.Source.Statement

/-!
# Labels of lines

A line defines a label if the first word before its comment ends with a colon, and the label is what
stands before the colon (`label_of_statementOf?`).
-/

set_option autoImplicit false

namespace Intel8085.Source

open Intel8085.Text

/-- A statement has the number of its line in the text, counted from one. -/
theorem statementOf?_of_mem {source : List Char} {one : NumberedStatement}
    (member : one ∈ statements source) :
    ∃ line, (lines source)[one.line - 1]? = some line ∧ 0 < one.line ∧
      statementOf? line = some one.statement := by
  obtain ⟨⟨line, index⟩, listed, isStatement⟩ := List.mem_filterMap.1 member
  obtain ⟨statement, found, rfl⟩ := Option.map_eq_some_iff.1 isStatement
  rw [List.mem_zipIdx_iff_getElem?] at listed
  exact ⟨line, listed, Nat.succ_pos index, found⟩

/-- The first word of the line is the label and a colon. -/
theorem label_of_statementOf? {line : List Char} {statement : Statement} {label : Label}
    (found : statementOf? line = some statement) (defines : statement.label = some label) :
    word (codeOf line) = label.written.toList ++ [':'] := by
  simp only [statementOf?] at found
  split at found
  · cases found
  · split at found
    · rename_i colon
      cases found
      cases defines
      obtain ⟨front, isFront⟩ := List.getLast?_eq_some_iff.1 (beq_iff_eq.1 colon)
      rw [isFront, String.toList_ofList, List.dropLast_concat]
    · cases found
      cases defines

/-- No blank stands in a label. -/
theorem isBlank_of_mem_written {source : List Char} {one : NumberedStatement}
    (member : one ∈ statements source) {label : Label} (defines : one.statement.label = some label)
    {character : Char} (inLabel : character ∈ label.written.toList) :
    isBlank character = false := by
  obtain ⟨line, _, _, found⟩ := statementOf?_of_mem member
  have inWord : character ∈ word (codeOf line) := by
    rw [label_of_statementOf? found defines]
    exact List.mem_append_left _ inLabel
  exact not_isBlank_of_mem_word inWord

end Intel8085.Source
