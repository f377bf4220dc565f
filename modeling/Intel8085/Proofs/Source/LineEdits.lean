import Intel8085.Proofs.Source.LabelDefinitions

/-!
# The layout of a line

A line may be laid out in many ways: blanks may stand at its beginning and at its end, there is a gap
behind a label and behind a mnemonic, blanks may stand around a comma, and a comment may stand at
the end.  A line has the same statement in one layout and in another (`statementOf?_of_lineEdit`), and
a line of blanks and a comment has none.

A gap between two words stays a gap and a word stays one word, since words are told from each other by
the blanks between them.  So blanks come and go around the commas between operands, which stand behind
the gap that follows the mnemonic; a comma in front of that gap is a character of a word.  Blanks
around such a comma cut the word in two, and that makes another statement: `A,B:` is a label and
`A ,B:` is a mnemonic with operands.
-/

set_option autoImplicit false

namespace Intel8085.Source

open Intel8085.Text

def AllBlank (text : List Char) : Prop :=
  ∀ character ∈ text, isBlank character = true

instance (text : List Char) : Decidable (AllBlank text) :=
  decidable_of_iff (text.all isBlank = true) List.all_eq_true

/-- Blanks between two words. -/
structure IsGap (text : List Char) : Prop where
  nonempty : text ≠ []
  blank : AllBlank text

instance (text : List Char) : Decidable (IsGap text) :=
  decidable_of_iff (text ≠ [] ∧ AllBlank text)
    ⟨fun ⟨nonempty, blank⟩ => ⟨nonempty, blank⟩, fun isGap => ⟨isGap.nonempty, isGap.blank⟩⟩

/-- A comment, or nothing. -/
inductive IsComment : List Char → Prop where
  | none : IsComment []
  | comment (rest : List Char) : IsComment (';' :: rest)

structure IsWord (text : List Char) : Prop where
  nonempty : text ≠ []
  plain : ∀ character ∈ text, isBlank character = false
  code : ';' ∉ text

instance (text : List Char) : Decidable (IsWord text) :=
  decidable_of_iff (text ≠ [] ∧ text.any isBlank = false ∧ ';' ∉ text) <| by
    simp only [List.any_eq_false, Bool.not_eq_true]
    exact ⟨fun ⟨nonempty, plain, code⟩ => ⟨nonempty, plain, code⟩,
      fun isWord => ⟨isWord.nonempty, isWord.plain, isWord.code⟩⟩

/-- The line holds nothing but blanks and a comment. -/
inductive IsBare : List Char → Prop where
  | intro {blanks comment : List Char} (blank : AllBlank blanks) (isComment : IsComment comment) :
      IsBare (blanks ++ comment)

/-- A line up to its mnemonic, with a label or without one. -/
inductive IsHead : List Char → Prop where
  | plain {indent mnemonic : List Char} (blank : AllBlank indent) (isWord : IsWord mnemonic)
      (noLabel : mnemonic.getLast? ≠ some ':') : IsHead (indent ++ mnemonic)
  | labelled {indent label gap mnemonic : List Char} (blank : AllBlank indent)
      (isLabel : IsWord (label ++ [':'])) (isGap : IsGap gap) (isWord : IsWord mnemonic) :
      IsHead (indent ++ (label ++ [':']) ++ gap ++ mnemonic)

/-- A line in two layouts. -/
inductive LineEdit : List Char → List Char → Prop where
  | comment (code : List Char) {one other : List Char} (isComment : IsComment one)
      (isOther : IsComment other) : LineEdit (code ++ one) (code ++ other)
  | beginning {one other : List Char} (blank : AllBlank one) (otherBlank : AllBlank other)
      (rest : List Char) : LineEdit (one ++ rest) (other ++ rest)
  | ending (code : List Char) {one other comment : List Char} (blank : AllBlank one)
      (otherBlank : AllBlank other) (isComment : IsComment comment) :
      LineEdit (code ++ one ++ comment) (code ++ other ++ comment)
  | afterLabel {indent label one other : List Char} (blank : AllBlank indent)
      (isLabel : IsWord (label ++ [':'])) (isGap : IsGap one) (isOther : IsGap other)
      (rest : List Char) :
      LineEdit (indent ++ (label ++ [':']) ++ one ++ rest)
        (indent ++ (label ++ [':']) ++ other ++ rest)
  | afterMnemonic {head one other : List Char} (isHead : IsHead head) (isGap : IsGap one)
      (isOther : IsGap other) (rest : List Char) :
      LineEdit (head ++ one ++ rest) (head ++ other ++ rest)
  /-- Blanks around a comma between operands, and not around one of the words in front of them. -/
  | aroundComma {head gap operands before after otherBefore otherAfter : List Char}
      (isHead : IsHead head) (isGap : IsGap gap) (code : ';' ∉ operands) (blank : AllBlank before)
      (blankAfter : AllBlank after) (otherBlank : AllBlank otherBefore)
      (otherBlankAfter : AllBlank otherAfter) (rest : List Char) :
      LineEdit (head ++ gap ++ (operands ++ before ++ ',' :: (after ++ rest)))
        (head ++ gap ++ (operands ++ otherBefore ++ ',' :: (otherAfter ++ rest)))

/-! ## Code -/

theorem statementOf?_congr {line other : List Char} (sameCode : codeOf line = codeOf other) :
    statementOf? line = statementOf? other := by
  rw [statementOf?, statementOf?, sameCode]

theorem codeOf_eq (line : List Char) : codeOf line = trim (uncommented line) :=
  rfl

theorem AllBlank.append {front back : List Char} (blank : AllBlank front)
    (blankBack : AllBlank back) : AllBlank (front ++ back) :=
  List.forall_mem_append.2 ⟨blank, blankBack⟩

theorem allBlank_takeWhile (text : List Char) : AllBlank (text.takeWhile isBlank) :=
  fun _ => isBlank_of_mem_takeWhile

theorem allBlank_blanksBehind (text : List Char) : AllBlank (blanksBehind text) :=
  fun _ => isBlank_of_mem_blanksBehind

theorem not_mem_of_allBlank {text : List Char} (blank : AllBlank text) {mark : Char}
    (plain : isBlank mark = false) : mark ∉ text := by
  intro member
  rw [blank mark member] at plain
  cases plain

theorem uncommented_append_of_not_mem {front : List Char} (noComment : ';' ∉ front)
    (rest : List Char) : uncommented (front ++ rest) = front ++ uncommented rest := by
  apply uncommented_append
  rintro character member rfl
  exact noComment member

theorem uncommented_of_not_mem {text : List Char} (noComment : ';' ∉ text) :
    uncommented text = text := by
  have nothing : uncommented [] = [] := rfl
  have whole := uncommented_append_of_not_mem noComment []
  rwa [List.append_nil, nothing, List.append_nil] at whole

theorem uncommented_append_of_mem {front : List Char} (commented : ';' ∈ front)
    (rest : List Char) : uncommented (front ++ rest) = uncommented front := by
  obtain ⟨code, comment, rfl, noComment⟩ := List.eq_append_cons_of_mem commented
  have empty : ∀ text, uncommented (';' :: text) = [] := fun _ => rfl
  rw [List.append_assoc, List.cons_append, uncommented_append_of_not_mem noComment,
    uncommented_append_of_not_mem noComment, empty, empty]

theorem uncommented_append_comment (code : List Char) {comment : List Char}
    (isComment : IsComment comment) : uncommented (code ++ comment) = uncommented code := by
  by_cases commented : ';' ∈ code
  · exact uncommented_append_of_mem commented comment
  · have nothing : uncommented comment = [] := by cases isComment <;> rfl
    rw [uncommented_append_of_not_mem commented, uncommented_of_not_mem commented, nothing,
      List.append_nil]

theorem trim_blanks_append {blanks : List Char} (blank : AllBlank blanks) (text : List Char) :
    trim (blanks ++ text) = trim text := by
  rw [trim, trimStart_append_of_blanks blank, trim]

theorem trim_append_blanks (text : List Char) {blanks : List Char} (blank : AllBlank blanks) :
    trim (text ++ blanks) = trim text := by
  calc trim (text ++ blanks)
      = trim (text.takeWhile isBlank ++ trim text ++
          (blanksBehind (trimStart text) ++ blanks)) := by
        rw [← List.append_assoc, takeWhile_append_trim]
    _ = trim text := trim_between_blanks (allBlank_takeWhile text)
        ((allBlank_blanksBehind _).append blank) (startsPlain_trim text) (endsPlain_trim text)

theorem allBlank_of_trim_eq_nil {text : List Char} (nothing : trim text = []) : AllBlank text := by
  rw [← takeWhile_append_trim text, nothing, List.append_nil]
  exact (allBlank_takeWhile text).append (allBlank_blanksBehind _)

theorem codeOf_append_comment (code : List Char) {comment : List Char}
    (isComment : IsComment comment) : codeOf (code ++ comment) = codeOf code := by
  rw [codeOf_eq, codeOf_eq, uncommented_append_comment code isComment]

theorem codeOf_blanks_append {blanks : List Char} (blank : AllBlank blanks) (rest : List Char) :
    codeOf (blanks ++ rest) = codeOf rest := by
  rw [codeOf_eq, codeOf_eq,
    uncommented_append_of_not_mem (not_mem_of_allBlank blank (by decide)),
    trim_blanks_append blank]

theorem codeOf_append_blanks (code : List Char) {blanks : List Char} (blank : AllBlank blanks) :
    codeOf (code ++ blanks) = codeOf code := by
  by_cases commented : ';' ∈ code
  · rw [codeOf_eq, codeOf_eq, uncommented_append_of_mem commented]
  · have noComment : ';' ∉ code ++ blanks := by
      rw [List.mem_append, not_or]
      exact ⟨commented, not_mem_of_allBlank blank (by decide)⟩
    rw [codeOf_eq, codeOf_eq, uncommented_of_not_mem noComment, uncommented_of_not_mem commented,
      trim_append_blanks _ blank]

theorem codeOf_of_isBare {line : List Char} (isBare : IsBare line) : codeOf line = [] := by
  cases isBare with
  | intro blank isComment =>
      rw [codeOf_append_comment _ isComment]
      exact codeOf_append_blanks [] blank

theorem statementOf?_of_isBare {line : List Char} (isBare : IsBare line) :
    statementOf? line = none := by
  rw [statementOf?, codeOf_of_isBare isBare]
  rfl

/-! ## Words with a gap behind them -/

theorem word_append_blanks {text blanks rest : List Char}
    (plain : ∀ character ∈ text, isBlank character = false) (blank : AllBlank blanks)
    (starts : StartsPlain rest) (none : blanks = [] → rest = []) :
    word (text ++ blanks ++ rest) = text ∧ afterWord (text ++ blanks ++ rest) = rest := by
  cases blanks with
  | nil =>
      rw [none rfl, List.append_nil, List.append_nil]
      exact ⟨word_of_no_blank plain, afterWord_of_no_blank plain⟩
  | cons first others =>
      have isFirst : isBlank first = true := blank first List.mem_cons_self
      rw [List.append_assoc, List.cons_append]
      refine ⟨word_append_blank plain isFirst _, ?_⟩
      rw [afterWord_append_blank plain isFirst, trimStart_append_of_blanks fun other member =>
        blank other (List.mem_cons_of_mem first member)]
      exact trimStart_of_startsPlain starts

/-- Behind a word the blanks in front of the rest stay, and those at its end go. -/
theorem trim_word_append {text rest : List Char} (isWord : IsWord text) (some : trim rest ≠ []) :
    trim (text ++ rest) = text ++ rest.takeWhile isBlank ++ trim rest := by
  have starts : StartsPlain (text ++ (rest.takeWhile isBlank ++ trim rest)) :=
    (startsPlain_append isWord.nonempty _).2 (startsPlain_of_free isWord.plain)
  have ends : EndsPlain (text ++ (rest.takeWhile isBlank ++ trim rest)) := by
    rw [← List.append_assoc]
    exact (endsPlain_append _ some).2 (endsPlain_trim rest)
  calc trim (text ++ rest)
      = trim (text ++ (rest.takeWhile isBlank ++ trim rest) ++ blanksBehind (trimStart rest)) := by
        rw [List.append_assoc, takeWhile_append_trim]
    _ = trim (text ++ (rest.takeWhile isBlank ++ trim rest)) :=
        trim_append_blanks _ (allBlank_blanksBehind _)
    _ = text ++ rest.takeWhile isBlank ++ trim rest := by
        rw [trim_eq_self starts ends, List.append_assoc]

section Words

variable {indent text gap : List Char} (blank : AllBlank indent) (isWord : IsWord text)
  (isGap : IsGap gap)
include blank isWord isGap

/-- The code of a line that begins with a word and a gap is the word and the code behind it, with
blanks between unless nothing is behind it. -/
theorem exists_codeOf_append_gap (rest : List Char) :
    ∃ blanks, AllBlank blanks ∧ (blanks = [] → codeOf rest = []) ∧
      codeOf (indent ++ text ++ gap ++ rest) = text ++ blanks ++ codeOf rest := by
  have noComment : ';' ∉ text ++ gap := by
    rw [List.mem_append, not_or]
    exact ⟨isWord.code, not_mem_of_allBlank isGap.blank (by decide)⟩
  have code : codeOf (indent ++ text ++ gap ++ rest) =
      trim (text ++ (gap ++ uncommented rest)) := by
    rw [List.append_assoc, List.append_assoc, ← List.append_assoc text, codeOf_blanks_append blank,
      codeOf_eq, uncommented_append_of_not_mem noComment, List.append_assoc]
  have behindGap : trim (gap ++ uncommented rest) = codeOf rest :=
    trim_blanks_append isGap.blank _
  rw [code]
  -- without code behind it, the gap is trimmed away with the blanks at the end of the line
  by_cases nothing : codeOf rest = []
  · have blanksBehindWord : AllBlank (gap ++ uncommented rest) :=
      isGap.blank.append (allBlank_of_trim_eq_nil nothing)
    refine ⟨[], by decide, fun _ => nothing, ?_⟩
    rw [trim_append_blanks _ blanksBehindWord, nothing, List.append_nil, List.append_nil]
    exact trim_eq_self (startsPlain_of_free isWord.plain) (endsPlain_of_free isWord.plain)
  · refine ⟨(gap ++ uncommented rest).takeWhile isBlank, allBlank_takeWhile _, ?_, ?_⟩
    · rw [List.takeWhile_append_of_pos isGap.blank]
      intro empty
      exact absurd (List.append_eq_nil_iff.1 empty).1 isGap.nonempty
    · rw [← behindGap] at nothing
      rw [trim_word_append isWord nothing, behindGap]

theorem word_of_gap (rest : List Char) :
    word (codeOf (indent ++ text ++ gap ++ rest)) = text ∧
      afterWord (codeOf (indent ++ text ++ gap ++ rest)) = codeOf rest := by
  obtain ⟨blanks, areBlank, none, code⟩ := exists_codeOf_append_gap blank isWord isGap rest
  rw [code]
  exact word_append_blanks isWord.plain areBlank (startsPlain_trim _) none

theorem isEmpty_codeOf_of_gap (rest : List Char) :
    (codeOf (indent ++ text ++ gap ++ rest)).isEmpty = false := by
  obtain ⟨blanks, _, _, code⟩ := exists_codeOf_append_gap blank isWord isGap rest
  rw [code, List.isEmpty_eq_false_iff, List.append_assoc]
  exact List.append_ne_nil_of_left_ne_nil isWord.nonempty _

theorem instructionOf?_of_gap (rest : List Char) :
    instructionOf? (codeOf (indent ++ text ++ gap ++ rest)) =
      some { mnemonic := capitalText text, operands := operandsOf (codeOf rest) } := by
  obtain ⟨isFirst, behind⟩ := word_of_gap blank isWord isGap rest
  rw [instructionOf?, isEmpty_codeOf_of_gap blank isWord isGap, instructionOf, isFirst, behind]
  rfl

theorem statementOf?_of_gap (noLabel : text.getLast? ≠ some ':') (rest : List Char) :
    statementOf? (indent ++ text ++ gap ++ rest) =
      some
        { label := none
          instruction :=
            some { mnemonic := capitalText text, operands := operandsOf (codeOf rest) } } := by
  obtain ⟨isFirst, behind⟩ := word_of_gap blank isWord isGap rest
  simp only [statementOf?, isEmpty_codeOf_of_gap blank isWord isGap, isFirst, behind,
    beq_eq_false_iff_ne.2 noLabel, instructionOf, Bool.false_eq_true, if_false]

end Words

theorem statementOf?_of_label {indent label gap : List Char} (blank : AllBlank indent)
    (isLabel : IsWord (label ++ [':'])) (isGap : IsGap gap) (rest : List Char) :
    statementOf? (indent ++ (label ++ [':']) ++ gap ++ rest) =
      some
        { label := some { written := String.ofList label }
          instruction := instructionOf? (codeOf rest) } := by
  obtain ⟨isFirst, behind⟩ := word_of_gap blank isLabel isGap rest
  simp only [statementOf?, isEmpty_codeOf_of_gap blank isLabel isGap, isFirst, behind,
    List.getLast?_concat, List.dropLast_concat, beq_self_eq_true, Bool.false_eq_true, if_false,
    if_true]

/-- A line with a gap behind its mnemonic has the operands of what is behind the gap. -/
theorem exists_statementOf?_of_head {head : List Char} (isHead : IsHead head) :
    ∃ label mnemonic, ∀ gap, IsGap gap → ∀ rest, statementOf? (head ++ gap ++ rest) =
      some { label, instruction := some { mnemonic, operands := operandsOf (codeOf rest) } } := by
  cases isHead with
  | @plain indent mnemonic blank isWord noLabel =>
      exact ⟨none, capitalText mnemonic, fun gap isGap rest =>
        statementOf?_of_gap blank isWord isGap noLabel rest⟩
  | @labelled indent label between mnemonic blank isLabel isBetween isWord =>
      refine ⟨some { written := String.ofList label }, capitalText mnemonic, ?_⟩
      intro gap isGap rest
      have noIndent : AllBlank [] := by decide
      rw [List.append_assoc, List.append_assoc, ← List.append_assoc mnemonic,
        statementOf?_of_label blank isLabel isBetween]
      exact congrArg _ (congrArg _ (instructionOf?_of_gap noIndent isWord isGap rest))

/-! ## Operands -/

/-- The parts between commas, without the blanks around them. -/
def partsOf (text : List Char) : List (List Char) :=
  (splitAtCommas text).map trim

theorem operandsOf_eq (text : List Char) :
    operandsOf text = if text.isEmpty then [] else (partsOf text).map capitalText := by
  rw [operandsOf, partsOf, List.map_map]
  rfl

/-- The operands of a line as they are written. -/
def writtenOperands (line : List Char) : List (List Char) :=
  let code := codeOf line
  let operands :=
    if (word code).getLast? == some ':' then afterWord (afterWord code) else afterWord code
  if operands.isEmpty then [] else partsOf operands

/-- The operands of a statement are those of its line, in capitals. -/
theorem operands_of_statementOf? {line : List Char} {statement : Statement}
    {instruction : Instruction} (read : statementOf? line = some statement)
    (instructs : statement.instruction = some instruction) :
    instruction.operands = (writtenOperands line).map capitalText := by
  have mapped : ∀ text, operandsOf text =
      (if text.isEmpty then [] else partsOf text).map capitalText := by
    intro text
    rw [operandsOf_eq, apply_ite (List.map capitalText), List.map_nil]
  unfold statementOf? at read
  simp only at read
  rw [writtenOperands, ← mapped]
  split at read
  · cases read
  · split at read
    · rename_i isLabel
      obtain rfl := Option.some.inj read
      rw [instructionOf?] at instructs
      split at instructs
      · cases instructs
      · obtain rfl := Option.some.inj instructs
        rw [if_pos isLabel]
        rfl
    · rename_i noLabel
      obtain rfl := Option.some.inj read
      obtain rfl := Option.some.inj instructs
      rw [if_neg noLabel]
      rfl

theorem partsOf_of_no_comma {text : List Char} (noComma : ',' ∉ text) :
    partsOf text = [trim text] := by
  rw [partsOf, splitAtCommas_of_no_comma noComma]
  rfl

theorem splitAtCommas_append (front back : List Char) :
    splitAtCommas (front ++ ',' :: back) = splitAtCommas front ++ splitAtCommas back := by
  induction front using run_induction (· == ',') with
  | single run free =>
      rw [splitAtCommas_append_comma (not_mem_comma_of_free free),
        splitAtCommas_of_no_comma (not_mem_comma_of_free free)]
      rfl
  | cut run separator rest free separates inductionHypothesis =>
      obtain rfl : separator = ',' := beq_iff_eq.1 separates
      rw [List.append_assoc, List.cons_append,
        splitAtCommas_append_comma (not_mem_comma_of_free free), inductionHypothesis,
        splitAtCommas_append_comma (not_mem_comma_of_free free), List.cons_append]

theorem partsOf_append (front back : List Char) :
    partsOf (front ++ ',' :: back) = partsOf front ++ partsOf back := by
  rw [partsOf, splitAtCommas_append, List.map_append, partsOf, partsOf]

theorem partsOf_blanks_append {blanks : List Char} (blank : AllBlank blanks) (text : List Char) :
    partsOf (blanks ++ text) = partsOf text := by
  have first : ∀ {run : List Char}, ',' ∉ run → partsOf (blanks ++ run) = partsOf run := by
    intro run noComma
    have noCommaInBoth : ',' ∉ blanks ++ run := by
      rw [List.mem_append, not_or]
      exact ⟨not_mem_of_allBlank blank (by decide), noComma⟩
    rw [partsOf_of_no_comma noCommaInBoth, partsOf_of_no_comma noComma, trim_blanks_append blank]
  induction text using run_induction (· == ',') with
  | single run free => exact first (not_mem_comma_of_free free)
  | cut run separator rest free separates _ =>
      obtain rfl : separator = ',' := beq_iff_eq.1 separates
      rw [← List.append_assoc, partsOf_append, partsOf_append, first (not_mem_comma_of_free free)]

theorem partsOf_append_blanks (text : List Char) {blanks : List Char} (blank : AllBlank blanks) :
    partsOf (text ++ blanks) = partsOf text := by
  induction text using run_induction (· == ',') with
  | single run free =>
      have noCommaInBoth : ',' ∉ run ++ blanks := by
        rw [List.mem_append, not_or]
        exact ⟨not_mem_comma_of_free free, not_mem_of_allBlank blank (by decide)⟩
      rw [partsOf_of_no_comma noCommaInBoth, partsOf_of_no_comma (not_mem_comma_of_free free),
        trim_append_blanks _ blank]
  | cut run separator rest free separates inductionHypothesis =>
      obtain rfl : separator = ',' := beq_iff_eq.1 separates
      rw [List.append_assoc, List.cons_append, partsOf_append, partsOf_append, inductionHypothesis]

theorem partsOf_trim (text : List Char) : partsOf (trim text) = partsOf text := by
  calc partsOf (trim text)
      = partsOf (text.takeWhile isBlank ++ trim text ++ blanksBehind (trimStart text)) := by
        rw [partsOf_append_blanks _ (allBlank_blanksBehind _),
          partsOf_blanks_append (allBlank_takeWhile text)]
    _ = partsOf text := by rw [takeWhile_append_trim]

/-- The operands of a text with a comma in it are the parts between its commas. -/
theorem operandsOf_codeOf_of_comma {operands : List Char} (code : ';' ∉ operands)
    {before after : List Char} (blank : AllBlank before) (blankAfter : AllBlank after)
    (rest : List Char) :
    operandsOf (codeOf (operands ++ before ++ ',' :: (after ++ rest))) =
      (partsOf operands ++ partsOf (uncommented rest)).map capitalText := by
  have noComment : ∀ mark ∈ operands ++ before ++ [','], mark ≠ ';' := by
    rintro mark member rfl
    simp only [List.mem_append, List.mem_singleton] at member
    rcases member with (inOperands | inBlanks) | impossible
    · exact code inOperands
    · exact not_mem_of_allBlank blank (by decide) inBlanks
    · cases impossible
  have noCommentAfter : ';' ∉ after := not_mem_of_allBlank blankAfter (by decide)
  have whole : uncommented (operands ++ before ++ ',' :: (after ++ rest)) =
      operands ++ before ++ ',' :: (after ++ uncommented rest) := by
    rw [List.append_cons, uncommented_append noComment, uncommented_append_of_not_mem noCommentAfter,
      ← List.append_cons]
  have some : (trim (operands ++ before ++ ',' :: (after ++ uncommented rest))).isEmpty = false := by
    rw [List.isEmpty_eq_false_iff]
    intro nothing
    have isBlanking := allBlank_of_trim_eq_nil nothing ',' (by simp)
    exact absurd isBlanking (by decide)
  rw [codeOf_eq, whole, operandsOf_eq, some, partsOf_trim, partsOf_append,
    partsOf_append_blanks _ blank, partsOf_blanks_append blankAfter]
  rfl

/-! ## Layouts -/

/-- The layout of a line has no part in its statement. -/
theorem statementOf?_of_lineEdit {line other : List Char} (edit : LineEdit line other) :
    statementOf? line = statementOf? other := by
  cases edit with
  | comment code isComment isOther =>
      apply statementOf?_congr
      rw [codeOf_append_comment code isComment, codeOf_append_comment code isOther]
  | beginning blank otherBlank rest =>
      apply statementOf?_congr
      rw [codeOf_blanks_append blank, codeOf_blanks_append otherBlank]
  | ending code blank otherBlank isComment =>
      apply statementOf?_congr
      rw [codeOf_append_comment _ isComment, codeOf_append_comment _ isComment,
        codeOf_append_blanks code blank, codeOf_append_blanks code otherBlank]
  | afterLabel blank isLabel isGap isOther rest =>
      rw [statementOf?_of_label blank isLabel isGap, statementOf?_of_label blank isLabel isOther]
  | afterMnemonic isHead isGap isOther rest =>
      obtain ⟨label, mnemonic, statement⟩ := exists_statementOf?_of_head isHead
      rw [statement _ isGap, statement _ isOther]
  | aroundComma isHead isGap code blank blankAfter otherBlank otherBlankAfter rest =>
      obtain ⟨label, mnemonic, statement⟩ := exists_statementOf?_of_head isHead
      rw [statement _ isGap, statement _ isGap, operandsOf_codeOf_of_comma code blank blankAfter,
        operandsOf_codeOf_of_comma code otherBlank otherBlankAfter]

end Intel8085.Source
