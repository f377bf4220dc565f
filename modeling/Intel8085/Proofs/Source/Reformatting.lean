import Intel8085.Proofs.Results
import Intel8085.Proofs.Source.Capitals
import Intel8085.Proofs.Source.LineEdits
import Intel8085.Proofs.Source.Numbering

/-!
# Source text in another layout

A source text is written in another way by changing the case of its letters, the layout of a line, or
the lines that hold nothing but blanks and a comment (`Edit`), as often as one likes (`Edits`).  Its
statements stay what they are: only the spelling of the labels may change, and a statement moves down
by the lines that are inserted before it (`matches_of_edits`).
-/

set_option autoImplicit false

namespace Intel8085.Source

open Intel8085.Text

/-- Where a line comes to stand when a line is inserted behind `count` lines. -/
def behindInserted (count line : Nat) : Nat :=
  if line ≤ count then line else line + 1

/-- Where a line comes to stand when the line behind `count` lines is removed. -/
def behindRemoved (count line : Nat) : Nat :=
  if line ≤ count then line else line - 1

/-- One change of the way a text is written, with what becomes of the numbers of its lines.  Texts
that differ in the case of letters have the same capitals. -/
inductive Edit (source again : List Char) : (Nat → Nat) → Prop where
  | letters (sameCapitals : capitals again = capitals source) : Edit source again id
  | line {front back : List (List Char)} {line other : List Char}
      (cut : lines source = front ++ line :: back) (edit : LineEdit line other)
      (cutAgain : lines again = front ++ other :: back) : Edit source again id
  | inserted {front back : List (List Char)} {line : List Char} (cut : lines source = front ++ back)
      (isBare : IsBare line) (cutAgain : lines again = front ++ line :: back) :
      Edit source again (behindInserted front.length)
  | removed {front back : List (List Char)} {line : List Char}
      (cut : lines source = front ++ line :: back) (isBare : IsBare line)
      (cutAgain : lines again = front ++ back) : Edit source again (behindRemoved front.length)

/-- A text in capitals is the text written in another way. -/
theorem edit_capitals (source : List Char) : Edit source (capitals source) id :=
  .letters (capitals_capitals source)

/-- Any number of changes, one after the other. -/
inductive Edits (source : List Char) : List Char → (Nat → Nat) → Prop where
  | none : Edits source source id
  | more {edited again : List Char} {moved next : Nat → Nat} (earlier : Edits source edited moved)
      (edit : Edit edited again next) : Edits source again (next ∘ moved)

/-- The same statement on the line that its own line has moved to, with its label in any case. -/
structure NumberedStatement.Matches (moved : Nat → Nat) (one other : NumberedStatement) : Prop where
  line : other.line = moved one.line
  label : other.statement.label.map Label.name = one.statement.label.map Label.name
  instruction : other.statement.instruction = one.statement.instruction

namespace NumberedStatement.Matches

theorem refl (one : NumberedStatement) : one.Matches id one :=
  ⟨rfl, rfl, rfl⟩

theorem symm {one other : NumberedStatement} (same : one.Matches id other) : other.Matches id one :=
  ⟨same.line.symm, same.label.symm, same.instruction.symm⟩

theorem trans {moved next : Nat → Nat} {one other last : NumberedStatement}
    (same : one.Matches moved other) (again : other.Matches next last) :
    one.Matches (next ∘ moved) last where
  line := by rw [again.line, same.line, Function.comp_apply]
  label := again.label.trans same.label
  instruction := again.instruction.trans same.instruction

theorem label_cases {moved : Nat → Nat} {one other : NumberedStatement}
    (same : one.Matches moved other) :
    (one.statement.label = none ∧ other.statement.label = none) ∨
      ∃ label otherLabel, one.statement.label = some label ∧
        other.statement.label = some otherLabel ∧ otherLabel.name = label.name := by
  have sameLabel := same.label
  cases defines : one.statement.label with
  | none =>
      rw [defines, Option.map_none, Option.map_eq_none_iff] at sameLabel
      exact Or.inl ⟨rfl, sameLabel⟩
  | some label =>
      rw [defines, Option.map_some, Option.map_eq_some_iff] at sameLabel
      obtain ⟨otherLabel, otherDefines, sameName⟩ := sameLabel
      exact Or.inr ⟨label, otherLabel, rfl, otherDefines, sameName⟩

end NumberedStatement.Matches

/-! ## Letters -/

def NumberedStatement.inCapitals (one : NumberedStatement) : NumberedStatement :=
  { one with statement := one.statement.inCapitals }

theorem matches_inCapitals (one : NumberedStatement) : one.Matches id one.inCapitals where
  line := rfl
  label := by
    have sameName : ∀ label : Label, ({ written := label.name } : Label).name = label.name :=
      fun label => upperCase_upperCase label.written
    simp only [NumberedStatement.inCapitals, Statement.inCapitals, Option.map_map,
      Function.comp_def, sameName]
  instruction := rfl

theorem statements_capitals (source : List Char) :
    statements (capitals source) = (statements source).map NumberedStatement.inCapitals := by
  rw [statements_eq, lines_capitals, statements_eq, statementsFrom, List.zipIdx_map,
    List.filterMap_map, statementsFrom, List.map_filterMap]
  congr 1
  funext entry
  obtain ⟨line, index⟩ := entry
  simp only [Function.comp_apply, Prod.map, id_eq, statementOf?_capitals, Option.map_map]
  rfl

theorem matches_capitals (source : List Char) :
    List.Forall₂ (NumberedStatement.Matches id) (statements source)
      (statements (capitals source)) := by
  rw [statements_capitals, List.forall₂_map_right_iff, List.forall₂_same]
  exact fun one _ => matches_inCapitals one

/-! ## Lines -/

/-- Behind an inserted line the statements stand one line further down. -/
theorem matches_of_inserted (front back : List (List Char)) {line : List Char}
    (isBare : IsBare line) :
    List.Forall₂ (NumberedStatement.Matches (behindInserted front.length))
      (statementsFrom 0 (front ++ back)) (statementsFrom 0 (front ++ line :: back)) := by
  have stays : ∀ one ∈ statementsFrom 0 front,
      NumberedStatement.Matches (behindInserted front.length) one one := by
    intro one member
    have within := line_le_of_mem_statementsFrom member
    rw [Nat.zero_add] at within
    exact ⟨(if_pos within).symm, rfl, rfl⟩
  have moves : ∀ one ∈ statementsFrom front.length back,
      NumberedStatement.Matches (behindInserted front.length) one
        { one with line := one.line + 1 } := by
    intro one member
    have behind := lt_line_of_mem_statementsFrom member
    exact ⟨(if_neg (Nat.not_le_of_lt behind)).symm, rfl, rfl⟩
  rw [statementsFrom_append, statementsFrom_append, Nat.zero_add, statementsFrom_cons,
    statementOf?_of_isBare isBare, Option.map_none, Option.toList_none, List.nil_append,
    statementsFrom_succ]
  refine List.rel_append (List.forall₂_same.2 stays) ?_
  rw [List.forall₂_map_right_iff]
  exact List.forall₂_same.2 moves

theorem matches_behindRemoved {count : Nat} {one other : NumberedStatement}
    (inserted : one.Matches (behindInserted count) other) :
    other.Matches (behindRemoved count) one where
  line := by
    have line := inserted.line
    rw [behindInserted] at line
    rw [behindRemoved]
    split at line <;> split <;> omega
  label := inserted.label.symm
  instruction := inserted.instruction.symm

/-! ## Texts -/

theorem matches_of_edit {source again : List Char} {moved : Nat → Nat}
    (edit : Edit source again moved) :
    List.Forall₂ (NumberedStatement.Matches moved) (statements source) (statements again) := by
  cases edit with
  | letters sameCapitals =>
      have back := (matches_capitals again).flip.imp fun _ _ => NumberedStatement.Matches.symm
      rw [sameCapitals] at back
      exact forall₂_trans (fun _ _ _ => .trans) (matches_capitals source) back
  | line cut edit cutAgain =>
      have same : statements again = statements source := by
        rw [statements_eq, statements_eq, cut, cutAgain, statementsFrom_append,
          statementsFrom_append, statementsFrom_cons, statementsFrom_cons,
          statementOf?_of_lineEdit edit]
      rw [same]
      exact List.forall₂_same.2 fun one _ => .refl one
  | inserted cut isBare cutAgain =>
      rw [statements_eq, statements_eq, cut, cutAgain]
      exact matches_of_inserted _ _ isBare
  | removed cut isBare cutAgain =>
      rw [statements_eq, statements_eq, cut, cutAgain]
      exact (matches_of_inserted _ _ isBare).flip.imp fun _ _ => matches_behindRemoved

/-- The statements of a text written in another way are those of the text, each on the line that its
own line has moved to. -/
theorem matches_of_edits {source again : List Char} {moved : Nat → Nat}
    (edits : Edits source again moved) :
    List.Forall₂ (NumberedStatement.Matches moved) (statements source) (statements again) := by
  induction edits with
  | none => exact List.forall₂_same.2 fun one _ => .refl one
  | more _ edit inductionHypothesis =>
      exact forall₂_trans (fun _ _ _ => .trans) inductionHypothesis (matches_of_edit edit)

end Intel8085.Source
