import Intel8085.Proofs.Source.Rewriting
import Intel8085.Proofs.Text.Marks

/-!
# Source text in capitals

Reading source text and putting it in capitals may change places: the lines of a text in capitals are
its lines in capitals, and so are the code of a line, its first word and the parts between its
commas.  The statement of a line stays the same, except that its label is written in capitals
(`statementOf?_capitals`).
-/

set_option autoImplicit false

namespace Intel8085.Source

open Intel8085.Text

/-- The statement with its label written in capitals. -/
def Statement.inCapitals (statement : Statement) : Statement :=
  { statement with label := statement.label.map fun label => { written := label.name } }

/-! ## Lines -/

theorem mapRuns_capitals (source : List Char) :
    mapRuns isLineBreak capitals source = capitals source := by
  induction source using run_induction isLineBreak with
  | single run free => exact mapRuns_of_free free
  | cut run separator rest free separates inductionHypothesis =>
      rw [mapRuns_append_separator free separates, inductionHypothesis, capitals_append,
        capitals_cons_mark (isMark_of_isLineBreak separates)]

theorem lines_capitals (source : List Char) :
    lines (capitals source) = (lines source).map capitals := by
  rw [← mapRuns_capitals]
  exact lines_mapRuns rfl capitals_ne_nil (forall_mem_capitals caseless_isLineBreak) source

/-! ## Trimming -/

theorem trimStart_capitals (text : List Char) :
    trimStart (capitals text) = capitals (trimStart text) :=
  dropWhile_capitals caseless_isBlank text

theorem endsPlain_capitals {text : List Char} (ends : EndsPlain text) :
    EndsPlain (capitals text) := by
  intro letter isLast
  obtain ⟨last, isLastOfText, isCapital⟩ := exists_of_getLast?_capitals isLast
  rw [caseless_isBlank last letter isCapital, ends last isLastOfText]

-- a capital may be a group of letters, so the capitals of a reversed text are not those reversed
theorem trimEnd_capitals (text : List Char) : trimEnd (capitals text) = capitals (trimEnd text) := by
  have blanks : ∀ letter ∈ capitals (blanksBehind text), isBlank letter = true :=
    forall_mem_capitals caseless_isBlank fun _ member => isBlank_of_mem_blanksBehind member
  calc trimEnd (capitals text)
      = trimEnd (capitals (trimEnd text) ++ capitals (blanksBehind text)) := by
        rw [← capitals_append, trimEnd_append_blanksBehind]
    _ = trimEnd (capitals (trimEnd text)) := trimEnd_append_of_blanks _ blanks
    _ = capitals (trimEnd text) := trimEnd_of_endsPlain (endsPlain_capitals (endsPlain_trimEnd text))

theorem trim_capitals (text : List Char) : trim (capitals text) = capitals (trim text) := by
  rw [trim, trimStart_capitals, trimEnd_capitals, trim]

theorem codeOf_capitals (line : List Char) : codeOf (capitals line) = capitals (codeOf line) := by
  have caseless : Caseless (· == ';') := caseless_beq (by decide)
  exact (congrArg trim (takeWhile_capitals caseless.not line)).trans (trim_capitals _)

/-! ## Words and operands -/

theorem word_capitals (text : List Char) : word (capitals text) = capitals (word text) :=
  takeWhile_capitals caseless_isBlank.not text

theorem afterWord_capitals (text : List Char) :
    afterWord (capitals text) = capitals (afterWord text) := by
  rw [afterWord, dropWhile_capitals caseless_isBlank.not, trimStart_capitals, afterWord]

theorem capitalText_capitals (text : List Char) : capitalText (capitals text) = capitalText text :=
  congrArg String.ofList (capitals_capitals text)

theorem splitAtCommas_capitals (text : List Char) :
    splitAtCommas (capitals text) = (splitAtCommas text).map capitals := by
  have caseless : Caseless (· == ',') := caseless_beq (by decide)
  induction text using run_induction (· == ',') with
  | single run free =>
      rw [splitAtCommas_of_no_comma (not_mem_comma_of_free free),
        splitAtCommas_of_no_comma (not_mem_comma_of_free (forall_mem_capitals caseless free))]
      rfl
  | cut run separator rest free separates inductionHypothesis =>
      obtain rfl : separator = ',' := beq_iff_eq.1 separates
      rw [capitals_append, capitals_cons_mark (by decide),
        splitAtCommas_append_comma (not_mem_comma_of_free (forall_mem_capitals caseless free)),
        splitAtCommas_append_comma (not_mem_comma_of_free free), inductionHypothesis]
      rfl

theorem operandsOf_capitals (text : List Char) : operandsOf (capitals text) = operandsOf text := by
  rw [operandsOf, operandsOf, isEmpty_capitals, splitAtCommas_capitals, List.map_map]
  have sameParts : ∀ part, capitalText (trim (capitals part)) = capitalText (trim part) := by
    intro part
    rw [trim_capitals, capitalText_capitals]
  simp only [Function.comp_def, sameParts]

theorem instructionOf_capitals (text : List Char) :
    instructionOf (capitals text) = instructionOf text := by
  rw [instructionOf, instructionOf, word_capitals, capitalText_capitals, afterWord_capitals,
    operandsOf_capitals]

theorem instructionOf?_capitals (text : List Char) :
    instructionOf? (capitals text) = instructionOf? text := by
  rw [instructionOf?, instructionOf?, isEmpty_capitals, instructionOf_capitals]

/-! ## Statements -/

theorem endsWithColon_capitals (text : List Char) :
    ((capitals text).getLast? == some ':') = (text.getLast? == some ':') := by
  rw [Bool.eq_iff_iff, beq_iff_eq, beq_iff_eq]
  constructor
  · intro isLast
    obtain ⟨last, isLastOfText, isCapital⟩ := exists_of_getLast?_capitals isLast
    rw [eq_of_isMark_of_mem_capital (by decide) isCapital]
    exact isLastOfText
  · intro isLast
    obtain ⟨front, rfl⟩ := List.getLast?_eq_some_iff.1 isLast
    rw [capitals_append, capitals_cons_mark (by decide)]
    exact List.getLast?_concat

theorem dropLast_capitals {text : List Char} (colon : text.getLast? = some ':') :
    (capitals text).dropLast = capitals text.dropLast := by
  obtain ⟨front, rfl⟩ := List.getLast?_eq_some_iff.1 colon
  rw [capitals_append, capitals_cons_mark (by decide), List.dropLast_concat]
  exact List.dropLast_concat

theorem statementOf?_capitals (line : List Char) :
    statementOf? (capitals line) = (statementOf? line).map Statement.inCapitals := by
  unfold statementOf?
  simp only [codeOf_capitals, isEmpty_capitals, word_capitals, afterWord_capitals,
    endsWithColon_capitals, instructionOf_capitals, instructionOf?_capitals]
  split
  · rfl
  · split
    · rename_i colon
      rw [dropLast_capitals (beq_iff_eq.1 colon)]
      simp only [Option.map_some, Statement.inCapitals, Label.name, upperCase, String.toList_ofList]
    · rfl

end Intel8085.Source
