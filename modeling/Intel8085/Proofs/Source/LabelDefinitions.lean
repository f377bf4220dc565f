import Intel8085.Proofs.Source.Labels
import Intel8085.Proofs.Source.Rewriting

/-!
# The labels that a text defines

Which label a line defines is seen from the line alone: the label is the first word in front of the
comment, without the colon that ends it (`IsLabelOf`).  The statements of a text define exactly the
labels that its lines define, each with the number of its line (`definesLabel_iff`).
-/

set_option autoImplicit false

namespace Intel8085.Source

open Intel8085.Text

/-- The first word of the line is the label and a colon, and no comment begins before its end. -/
def IsLabelOf (written line : List Char) : Prop :=
  ∃ blanks rest, line = blanks ++ written ++ ':' :: rest ∧
    (∀ character ∈ blanks, isBlank character = true) ∧
    (∀ character ∈ written, isBlank character = false ∧ character ≠ ';') ∧
    ∀ next ∈ rest.head?, isBlank next = true ∨ next = ';'

/-- The line of a text with this number, counted from one, defines the label. -/
def DefinesLabel (source : List Char) (number : Nat) (written : String) : Prop :=
  0 < number ∧ ∃ line, (lines source)[number - 1]? = some line ∧ IsLabelOf written.toList line

/-! ## The first word of the code -/

theorem word_append_of_stop {text rest : List Char}
    (plain : ∀ character ∈ text, isBlank character = false)
    (stops : ∀ next ∈ rest.head?, isBlank next = true) : word (text ++ rest) = text := by
  cases rest with
  | nil => rw [List.append_nil, word_of_no_blank plain]
  | cons next others => exact word_append_blank plain (stops next rfl) others

theorem word_append_of_blanks (front : List Char) {blanks : List Char}
    (areBlanks : ∀ character ∈ blanks, isBlank character = true) :
    word (front ++ blanks) = word front := by
  induction front with
  | nil =>
      have stops : ∀ next ∈ blanks.head?, isBlank next = true := fun next isFirst =>
        areBlanks next (List.mem_of_head? isFirst)
      exact word_append_of_stop (fun _ impossible => absurd impossible List.not_mem_nil) stops
  | cons first others inductionHypothesis =>
      rw [word, word] at inductionHypothesis ⊢
      rw [List.cons_append, List.takeWhile_cons, List.takeWhile_cons, inductionHypothesis]

/-- The part of a line in front of its comment. -/
def uncommented (line : List Char) : List Char :=
  line.takeWhile fun character => character != ';'

theorem uncommented_append {front : List Char} (noComment : ∀ character ∈ front, character ≠ ';')
    (rest : List Char) : uncommented (front ++ rest) = front ++ uncommented rest :=
  List.takeWhile_append_of_pos fun character member => bne_iff_ne.2 (noComment character member)

theorem head?_uncommented {line : List Char} {next : Char} (isNext : next ∈ (uncommented line).head?) :
    next ∈ line.head? ∧ next ≠ ';' := by
  rw [uncommented, List.head?_takeWhile, Option.mem_def, Option.filter_eq_some_iff] at isNext
  exact ⟨isNext.1, bne_iff_ne.1 isNext.2⟩

theorem word_codeOf (line : List Char) : word (codeOf line) = word (trimStart (uncommented line)) := by
  have joined := trimEnd_append_blanksBehind (trimStart (uncommented line))
  calc word (codeOf line)
      = word (codeOf line ++ blanksBehind (trimStart (uncommented line))) :=
        (word_append_of_blanks _ fun _ member => isBlank_of_mem_blanksBehind member).symm
    _ = word (trimStart (uncommented line)) := congrArg word joined

/-- Behind a word stands a blank, unless nothing stands there. -/
theorem isBlank_of_head?_behind_word {text : List Char} {next : Char}
    (isNext : next ∈ (text.dropWhile fun character => !isBlank character).head?) :
    isBlank next = true := by
  have fails := List.head?_dropWhile_not (fun character => !isBlank character) text
  rw [Option.mem_def.1 isNext] at fails
  simpa using fails

/-- Behind the part in front of a comment stands a semicolon, unless nothing stands there. -/
theorem eq_of_head?_behind_uncommented {line : List Char} {next : Char}
    (isNext : next ∈ (line.dropWhile fun character => character != ';').head?) : next = ';' := by
  have fails := List.head?_dropWhile_not (fun character => character != ';') line
  rw [Option.mem_def.1 isNext] at fails
  simpa using fails

theorem isLabelOf_of_word {written line : List Char}
    (isWord : word (codeOf line) = written ++ [':']) : IsLabelOf written line := by
  rw [word_codeOf] at isWord
  have behindWord := List.takeWhile_append_dropWhile (p := fun character => !isBlank character)
    (l := trimStart (uncommented line))
  have behindBlanks := List.takeWhile_append_dropWhile (p := isBlank) (l := uncommented line)
  have behindCode := List.takeWhile_append_dropWhile (p := fun character => character != ';')
    (l := line)
  -- the line is cut at its comment, behind its blanks and behind its first word
  refine ⟨(uncommented line).takeWhile isBlank,
    (trimStart (uncommented line)).dropWhile (fun character => !isBlank character) ++
      line.dropWhile (fun character => character != ';'), ?_, ?_, ?_, ?_⟩
  · calc line
        = (uncommented line).takeWhile isBlank ++ (word (trimStart (uncommented line)) ++
            (trimStart (uncommented line)).dropWhile fun character => !isBlank character) ++
            line.dropWhile fun character => character != ';' := by
          rw [word, behindWord, trimStart, behindBlanks, uncommented, behindCode]
      _ = _ := by simp [isWord]
  · exact fun _ member => isBlank_of_mem_takeWhile member
  · intro character member
    have inWord : character ∈ word (trimStart (uncommented line)) := by
      rw [isWord]
      exact List.mem_append_left _ member
    have inCode : character ∈ uncommented line :=
      (List.dropWhile_suffix _).subset ((List.takeWhile_prefix _).subset inWord)
    have noComment := List.all_eq_true.1 List.all_takeWhile character inCode
    exact ⟨not_isBlank_of_mem_word inWord, by simpa using noComment⟩
  · intro next isNext
    rw [List.head?_append, Option.mem_def, Option.or_eq_some_iff] at isNext
    rcases isNext with inCode | ⟨_, behind⟩
    · exact Or.inl (isBlank_of_head?_behind_word inCode)
    · exact Or.inr (eq_of_head?_behind_uncommented behind)

theorem word_of_isLabelOf {written line : List Char} (isLabel : IsLabelOf written line) :
    word (codeOf line) = written ++ [':'] := by
  obtain ⟨blanks, rest, rfl, areBlanks, plain, ends⟩ := isLabel
  have plainWord : ∀ character ∈ written ++ [':'], isBlank character = false := by
    intro character member
    rcases List.mem_append.1 member with inLabel | isColon
    · exact (plain character inLabel).1
    · rw [List.mem_singleton.1 isColon]
      decide
  have noComment : ∀ character ∈ blanks ++ written ++ [':'], character ≠ ';' := by
    intro character member
    simp only [List.mem_append, List.mem_singleton] at member
    rcases member with (isBlanking | inLabel) | rfl
    · rintro rfl
      exact absurd (areBlanks _ isBlanking) (by decide)
    · exact (plain character inLabel).2
    · decide
  have code : uncommented (blanks ++ written ++ ':' :: rest) =
      blanks ++ ((written ++ [':']) ++ uncommented rest) := by
    rw [List.append_cons, uncommented_append noComment, List.append_assoc, List.append_assoc]
    simp
  have starts : StartsPlain ((written ++ [':']) ++ uncommented rest) := by
    rw [startsPlain_append (List.append_ne_nil_of_right_ne_nil _ (List.cons_ne_nil _ _))]
    exact startsPlain_of_free plainWord
  have stops : ∀ next ∈ (uncommented rest).head?, isBlank next = true := by
    intro next isNext
    obtain ⟨isFirst, noSemicolon⟩ := head?_uncommented isNext
    exact (ends next isFirst).resolve_right noSemicolon
  rw [word_codeOf, code, trimStart_append_of_blanks areBlanks, trimStart_of_startsPlain starts,
    word_append_of_stop plainWord stops]

theorem isLabelOf_iff {written line : List Char} :
    IsLabelOf written line ↔ word (codeOf line) = written ++ [':'] :=
  ⟨word_of_isLabelOf, isLabelOf_of_word⟩

/-! ## Statements -/

theorem exists_statementOf?_iff {line : List Char} {label : Label} :
    (∃ statement, statementOf? line = some statement ∧ statement.label = some label) ↔
      IsLabelOf label.written.toList line := by
  rw [isLabelOf_iff]
  constructor
  · rintro ⟨statement, found, defines⟩
    exact label_of_statementOf? found defines
  · intro isWord
    have hasCode : (codeOf line).isEmpty = false := by
      rw [List.isEmpty_eq_false_iff]
      intro empty
      rw [empty] at isWord
      exact absurd isWord.symm (by simp [word])
    refine ⟨{ label := some label, instruction := instructionOf? (afterWord (codeOf line)) }, ?_, rfl⟩
    simp [statementOf?, hasCode, isWord]

theorem mem_statements_iff {source : List Char} {one : NumberedStatement} :
    one ∈ statements source ↔ 0 < one.line ∧ ∃ line, (lines source)[one.line - 1]? = some line ∧
      statementOf? line = some one.statement := by
  constructor
  · intro member
    obtain ⟨line, listed, positive, found⟩ := statementOf?_of_mem member
    exact ⟨positive, line, listed, found⟩
  · rintro ⟨positive, line, listed, found⟩
    refine List.mem_filterMap.2
      ⟨(line, one.line - 1), List.mem_zipIdx_iff_getElem?.2 listed, ?_⟩
    simp only [found, Option.map_some, Nat.sub_add_cancel positive]

/-- The labels that the statements of a text define are those that its lines define. -/
theorem definesLabel_iff {source : List Char} {number : Nat} {written : String} :
    DefinesLabel source number written ↔
      ∃ one ∈ statements source, one.line = number ∧ one.statement.label = some { written } := by
  constructor
  · rintro ⟨positive, line, listed, isLabel⟩
    have isWritten : IsLabelOf ({ written } : Label).written.toList line := isLabel
    obtain ⟨statement, found, defines⟩ := exists_statementOf?_iff.2 isWritten
    exact ⟨{ line := number, statement }, mem_statements_iff.2 ⟨positive, line, listed, found⟩, rfl,
      defines⟩
  · rintro ⟨one, member, rfl, defines⟩
    obtain ⟨positive, line, listed, found⟩ := mem_statements_iff.1 member
    exact ⟨positive, line, listed, exists_statementOf?_iff.1 ⟨_, found, defines⟩⟩

end Intel8085.Source
