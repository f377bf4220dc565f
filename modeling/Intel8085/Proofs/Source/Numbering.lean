import Intel8085.Proofs.Text.Cutting
import Intel8085.Source.Statement

/-!
# Statements of numbered lines

The statements of a text are those of its lines one by one, each with the number of its line.  So the
statements of lines in front stay what they are whatever comes behind (`statements_append_lineFeed`).
-/

set_option autoImplicit false

namespace Intel8085.Source

open Intel8085.Text

/-- The statements of lines that stand behind `before` others. -/
def statementsFrom (before : Nat) (texts : List (List Char)) : List NumberedStatement :=
  (texts.zipIdx before).filterMap fun (line, index) =>
    (statementOf? line).map fun statement => { line := index + 1, statement }

theorem statements_eq (source : List Char) : statements source = statementsFrom 0 (lines source) :=
  rfl

theorem statementsFrom_append (before : Nat) (front back : List (List Char)) :
    statementsFrom before (front ++ back) =
      statementsFrom before front ++ statementsFrom (before + front.length) back := by
  rw [statementsFrom, List.zipIdx_append, List.filterMap_append]
  rfl

theorem statementsFrom_cons (before : Nat) (text : List Char) (others : List (List Char)) :
    statementsFrom before (text :: others) =
      ((statementOf? text).map fun statement => { line := before + 1, statement }).toList ++
        statementsFrom (before + 1) others := by
  rw [statementsFrom, List.zipIdx_cons, List.filterMap_cons]
  cases found : statementOf? text with
  | none =>
      simp only [found, Option.map_none]
      rfl
  | some statement =>
      simp only [found, Option.map_some]
      rfl

/-- Behind one more line each statement is one line further down. -/
theorem statementsFrom_succ (before : Nat) (texts : List (List Char)) :
    statementsFrom (before + 1) texts =
      (statementsFrom before texts).map fun one => { one with line := one.line + 1 } := by
  rw [statementsFrom, List.zipIdx_succ, List.filterMap_map, statementsFrom, List.map_filterMap]
  congr 1
  funext entry
  obtain ⟨line, index⟩ := entry
  simp only [Function.comp_apply, Option.map_map]
  rfl

theorem line_le_of_mem_statementsFrom {before : Nat} {texts : List (List Char)}
    {one : NumberedStatement} (member : one ∈ statementsFrom before texts) :
    one.line ≤ before + texts.length := by
  obtain ⟨⟨line, index⟩, listed, isStatement⟩ := List.mem_filterMap.1 member
  obtain ⟨statement, _, rfl⟩ := Option.map_eq_some_iff.1 isStatement
  have within := (List.mem_zipIdx listed).2.1
  exact within

theorem lt_line_of_mem_statementsFrom {before : Nat} {texts : List (List Char)}
    {one : NumberedStatement} (member : one ∈ statementsFrom before texts) : before < one.line := by
  obtain ⟨⟨line, index⟩, listed, isStatement⟩ := List.mem_filterMap.1 member
  obtain ⟨statement, _, rfl⟩ := Option.map_eq_some_iff.1 isStatement
  have behind := (List.mem_zipIdx listed).1
  exact Nat.lt_succ_of_le behind

/-- What is added behind a line feed adds statements behind those of the text, on later lines. -/
theorem statements_append_lineFeed (front back : List Char) :
    ∃ later, statements (front ++ '\n' :: back) = statements front ++ later ∧
      ∀ one ∈ later, (lines front).length < one.line := by
  obtain ⟨others, whole⟩ := lines_prefix front back
  refine ⟨statementsFrom (0 + (lines front).length) others, ?_, ?_⟩
  · rw [statements_eq, ← whole, statementsFrom_append]
    rfl
  · intro one member
    have behind := lt_line_of_mem_statementsFrom member
    rwa [Nat.zero_add] at behind

end Intel8085.Source
