import Intel8085.Proofs.Source.Spelling

/-!
# Changing a part of source text

A change of a text is carried over to larger texts: to every run between separators (`mapRuns`), to
what is left when blanks are trimmed (`mapTrimmed`), to what follows the first word
(`mapAfterWord`), and to a line without its comment (`mapCode`).  Everything else stays as it was
written.  If the change keeps the shape of a text (`Keeps`), then reading a changed text is changing
what is read: its lines, its code, its first word, and the parts between its commas.
-/

set_option autoImplicit false

namespace Intel8085.Source

open Intel8085.Text

/-- The text does not begin with a blank. -/
def StartsPlain (text : List Char) : Prop :=
  ∀ first ∈ text.head?, isBlank first = false

/-- The text does not end with a blank. -/
def EndsPlain (text : List Char) : Prop :=
  ∀ last ∈ text.getLast?, isBlank last = false

/-- The change keeps the shape of a text: an empty text stays empty and no other becomes empty, no
blank comes to an end of the text, and only plain characters are added. -/
structure Keeps (change : List Char → List Char) : Prop where
  empty : change [] = []
  nonempty : ∀ {text}, text ≠ [] → change text ≠ []
  adds : ∀ {text character}, character ∈ change text →
    character ∈ text ∨ isPlain character = true
  starts : ∀ {text}, StartsPlain text → StartsPlain (change text)
  ends : ∀ {text}, EndsPlain text → EndsPlain (change text)

/-- A change that is always one of two. -/
theorem keeps_of_either {change first second : List Char → List Char} (keepsFirst : Keeps first)
    (keepsSecond : Keeps second)
    (either : ∀ text, change text = first text ∨ change text = second text) : Keeps change where
  empty := by
    rcases either [] with same | same
    · rw [same, keepsFirst.empty]
    · rw [same, keepsSecond.empty]
  nonempty := by
    intro text some
    rcases either text with same | same
    · rw [same]
      exact keepsFirst.nonempty some
    · rw [same]
      exact keepsSecond.nonempty some
  adds := by
    intro text character member
    rcases either text with same | same
    · rw [same] at member
      exact keepsFirst.adds member
    · rw [same] at member
      exact keepsSecond.adds member
  starts := by
    intro text starts
    rcases either text with same | same
    · rw [same]
      exact keepsFirst.starts starts
    · rw [same]
      exact keepsSecond.starts starts
  ends := by
    intro text ends
    rcases either text with same | same
    · rw [same]
      exact keepsFirst.ends ends
    · rw [same]
      exact keepsSecond.ends ends

theorem isEmpty_of_keeps {change : List Char → List Char} (keeps : Keeps change)
    (text : List Char) : (change text).isEmpty = text.isEmpty := by
  cases text with
  | nil => rw [keeps.empty]
  | cons first rest =>
      rw [List.isEmpty_cons, List.isEmpty_eq_false_iff]
      exact keeps.nonempty (List.cons_ne_nil first rest)

/-! ## Ends of a text -/

theorem startsPlain_append {front : List Char} (some : front ≠ []) (back : List Char) :
    StartsPlain (front ++ back) ↔ StartsPlain front := by
  rw [StartsPlain, StartsPlain, List.head?_append_of_ne_nil front some]

theorem endsPlain_append (front : List Char) {back : List Char} (some : back ≠ []) :
    EndsPlain (front ++ back) ↔ EndsPlain back := by
  rw [EndsPlain, EndsPlain, List.getLast?_append_of_ne_nil front some]

theorem startsPlain_of_free {text : List Char}
    (free : ∀ character ∈ text, isBlank character = false) : StartsPlain text :=
  fun first isFirst => free first (List.mem_of_head? isFirst)

theorem endsPlain_of_free {text : List Char}
    (free : ∀ character ∈ text, isBlank character = false) : EndsPlain text :=
  fun last isLast => free last (List.mem_of_getLast? isLast)

/-! ## Trimming -/

theorem startsPlain_trimStart (text : List Char) : StartsPlain (trimStart text) := by
  intro first isFirst
  have fails := List.head?_dropWhile_not isBlank text
  rw [trimStart] at isFirst
  rw [Option.mem_def.1 isFirst] at fails
  exact fails

theorem trimStart_append_of_blanks {front : List Char}
    (blanks : ∀ character ∈ front, isBlank character = true) (rest : List Char) :
    trimStart (front ++ rest) = trimStart rest :=
  List.dropWhile_append_of_pos blanks

theorem trimStart_of_startsPlain {text : List Char} (starts : StartsPlain text) :
    trimStart text = text := by
  cases text with
  | nil => rfl
  | cons first rest => exact trimStart_cons (starts first rfl) rest

theorem endsPlain_trimEnd (text : List Char) : EndsPlain (trimEnd text) := by
  intro last isLast
  rw [trimEnd, List.getLast?_reverse] at isLast
  exact startsPlain_trimStart text.reverse last isLast

theorem trimEnd_append_of_blanks (front : List Char) {back : List Char}
    (blanks : ∀ character ∈ back, isBlank character = true) :
    trimEnd (front ++ back) = trimEnd front := by
  have reversed : ∀ character ∈ back.reverse, isBlank character = true := fun character member =>
    blanks character (List.mem_reverse.1 member)
  rw [trimEnd, List.reverse_append, List.dropWhile_append_of_pos reversed]
  rfl

theorem trimEnd_of_endsPlain {text : List Char} (ends : EndsPlain text) : trimEnd text = text := by
  rcases List.eq_nil_or_concat text with rfl | ⟨front, last, rfl⟩
  · rfl
  · rw [List.concat_eq_append]
    exact trimEnd_append_singleton (ends last (by simp)) front

/-- The blanks that end a text. -/
def blanksBehind (text : List Char) : List Char :=
  (text.reverse.takeWhile isBlank).reverse

theorem isBlank_of_mem_blanksBehind {text : List Char} {character : Char}
    (member : character ∈ blanksBehind text) : isBlank character = true :=
  List.all_eq_true.1 List.all_takeWhile character (List.mem_reverse.1 member)

theorem trimEnd_append_blanksBehind (text : List Char) :
    trimEnd text ++ blanksBehind text = text := by
  rw [trimEnd, blanksBehind, ← List.reverse_append, List.takeWhile_append_dropWhile,
    List.reverse_reverse]

theorem isBlank_of_mem_takeWhile {text : List Char} {character : Char}
    (member : character ∈ text.takeWhile isBlank) : isBlank character = true :=
  List.all_eq_true.1 List.all_takeWhile character member

theorem takeWhile_of_startsPlain {text : List Char} (starts : StartsPlain text) :
    text.takeWhile isBlank = [] := by
  cases text with
  | nil => rfl
  | cons first rest => rw [List.takeWhile_cons_of_neg (by simp [starts first rfl])]

theorem blanksBehind_of_endsPlain {text : List Char} (ends : EndsPlain text) :
    blanksBehind text = [] := by
  have starts : StartsPlain text.reverse := by
    intro first isFirst
    rw [List.head?_reverse] at isFirst
    exact ends first isFirst
  rw [blanksBehind, takeWhile_of_startsPlain starts]
  rfl

theorem endsPlain_trimStart {text : List Char} (ends : EndsPlain text) :
    EndsPlain (trimStart text) := by
  by_cases some : trimStart text = []
  · rw [some]
    intro last impossible
    cases impossible
  · rw [← List.takeWhile_append_dropWhile (p := isBlank) (l := text)] at ends
    exact (endsPlain_append _ some).1 ends

/-- What is trimmed away stands around what is left. -/
theorem takeWhile_append_trim (text : List Char) :
    text.takeWhile isBlank ++ trim text ++ blanksBehind (trimStart text) = text := by
  rw [List.append_assoc, trim, trimEnd_append_blanksBehind, trimStart,
    List.takeWhile_append_dropWhile]

theorem startsPlain_trim (text : List Char) : StartsPlain (trim text) := by
  by_cases some : trim text = []
  · rw [some]
    intro first impossible
    cases impossible
  · have starts := startsPlain_trimStart text
    rw [← trimEnd_append_blanksBehind (trimStart text)] at starts
    exact (startsPlain_append some _).1 starts

theorem endsPlain_trim (text : List Char) : EndsPlain (trim text) :=
  endsPlain_trimEnd (trimStart text)

theorem trim_between_blanks {front text back : List Char}
    (frontBlanks : ∀ character ∈ front, isBlank character = true)
    (backBlanks : ∀ character ∈ back, isBlank character = true)
    (starts : StartsPlain text) (ends : EndsPlain text) : trim (front ++ text ++ back) = text := by
  rw [List.append_assoc, trim, trimStart_append_of_blanks frontBlanks]
  by_cases some : text = []
  · subst some
    have nothing : trimStart back = [] := by
      rw [← List.append_nil back, trimStart_append_of_blanks backBlanks]
      rfl
    rw [List.nil_append, nothing]
    rfl
  · rw [trimStart_of_startsPlain ((startsPlain_append some back).2 starts),
      trimEnd_append_of_blanks text backBlanks, trimEnd_of_endsPlain ends]

/-- A text with what is left of it when it is trimmed changed, between the same blanks. -/
def mapTrimmed (change : List Char → List Char) (text : List Char) : List Char :=
  text.takeWhile isBlank ++ change (trim text) ++ blanksBehind (trimStart text)

section Change

variable {change : List Char → List Char} (keeps : Keeps change)
include keeps

theorem trim_mapTrimmed (text : List Char) : trim (mapTrimmed change text) = change (trim text) :=
  trim_between_blanks (fun _ => isBlank_of_mem_takeWhile) (fun _ => isBlank_of_mem_blanksBehind)
    (keeps.starts (startsPlain_trim text)) (keeps.ends (endsPlain_trim text))

theorem mapTrimmed_nil : mapTrimmed change [] = [] := by
  have nothing : trim [] = [] := rfl
  rw [mapTrimmed, nothing, keeps.empty]
  rfl

theorem mapTrimmed_ne_nil {text : List Char} (some : text ≠ []) : mapTrimmed change text ≠ [] := by
  intro empty
  rw [mapTrimmed, List.append_eq_nil_iff, List.append_eq_nil_iff] at empty
  obtain ⟨⟨noFront, noText⟩, noBack⟩ := empty
  have nothing : trim text = [] := by
    by_contra left
    exact keeps.nonempty left noText
  apply some
  rw [← takeWhile_append_trim text, noFront, nothing, noBack]
  rfl

theorem adds_mapTrimmed {text : List Char} {character : Char}
    (member : character ∈ mapTrimmed change text) :
    character ∈ text ∨ isPlain character = true := by
  have parts : character ∈ text.takeWhile isBlank ++ trim text ++ blanksBehind (trimStart text) ↔
      character ∈ text := by rw [takeWhile_append_trim]
  simp only [List.mem_append] at parts
  rw [mapTrimmed, List.mem_append, List.mem_append] at member
  rcases member with (inFront | inChanged) | inBack
  · exact Or.inl (parts.1 (Or.inl (Or.inl inFront)))
  · exact (keeps.adds inChanged).imp_left fun inTrimmed => parts.1 (Or.inl (Or.inr inTrimmed))
  · exact Or.inl (parts.1 (Or.inr inBack))

theorem keeps_mapTrimmed : Keeps (mapTrimmed change) where
  empty := mapTrimmed_nil keeps
  nonempty := mapTrimmed_ne_nil keeps
  adds := adds_mapTrimmed keeps
  starts := by
    intro text starts
    have noFront := takeWhile_of_startsPlain starts
    have whole := takeWhile_append_trim text
    rw [noFront, List.nil_append] at whole
    rw [mapTrimmed, noFront, List.nil_append]
    by_cases nothing : trim text = []
    · rw [nothing, List.nil_append] at whole
      rw [nothing, keeps.empty, List.nil_append, whole]
      exact starts
    · exact (startsPlain_append (keeps.nonempty nothing) _).2 (keeps.starts (startsPlain_trim text))
  ends := by
    intro text ends
    have noBack := blanksBehind_of_endsPlain (endsPlain_trimStart ends)
    have whole := takeWhile_append_trim text
    rw [noBack, List.append_nil] at whole
    rw [mapTrimmed, noBack, List.append_nil]
    by_cases nothing : trim text = []
    · rw [nothing, List.append_nil] at whole
      rw [nothing, keeps.empty, List.append_nil, whole]
      exact ends
    · exact (endsPlain_append _ (keeps.nonempty nothing)).2 (keeps.ends (endsPlain_trim text))

end Change

/-! ## Runs -/

def mapRunsFrom (isSeparator : Char → Bool) (change : List Char → List Char) (run : List Char) :
    List Char → List Char
  | [] => change run.reverse
  | character :: rest =>
      if isSeparator character then
        change run.reverse ++ character :: mapRunsFrom isSeparator change [] rest
      else mapRunsFrom isSeparator change (character :: run) rest

/-- A text with each of its runs between separators changed; where two separators meet, or one stands
at an end, is an empty run. -/
def mapRuns (isSeparator : Char → Bool) (change : List Char → List Char) (text : List Char) :
    List Char :=
  mapRunsFrom isSeparator change [] text

section Runs

variable {isSeparator : Char → Bool} {change : List Char → List Char}

theorem mapRunsFrom_append {text : List Char}
    (free : ∀ character ∈ text, isSeparator character = false) (run rest : List Char) :
    mapRunsFrom isSeparator change run (text ++ rest) =
      mapRunsFrom isSeparator change (text.reverse ++ run) rest := by
  induction text generalizing run with
  | nil => rfl
  | cons character others inductionHypothesis =>
      have notSeparator := free character List.mem_cons_self
      have othersFree : ∀ other ∈ others, isSeparator other = false := fun other member =>
        free other (List.mem_cons_of_mem character member)
      rw [List.cons_append, mapRunsFrom, notSeparator]
      simp only [Bool.false_eq_true, if_false]
      rw [inductionHypothesis othersFree, List.reverse_cons, List.append_assoc]
      rfl

theorem mapRuns_of_free {run : List Char}
    (free : ∀ character ∈ run, isSeparator character = false) :
    mapRuns isSeparator change run = change run := by
  have whole : mapRunsFrom isSeparator change [] (run ++ []) =
      mapRunsFrom isSeparator change (run.reverse ++ []) [] := mapRunsFrom_append free [] []
  rw [List.append_nil, List.append_nil] at whole
  rw [mapRuns, whole, mapRunsFrom, List.reverse_reverse]

theorem mapRuns_append_separator {run : List Char}
    (free : ∀ character ∈ run, isSeparator character = false) {separator : Char}
    (separates : isSeparator separator = true) (rest : List Char) :
    mapRuns isSeparator change (run ++ separator :: rest) =
      change run ++ separator :: mapRuns isSeparator change rest := by
  rw [mapRuns, mapRunsFrom_append free, mapRunsFrom, if_pos separates, List.append_nil,
    List.reverse_reverse]
  rfl

/-- A text is a run, or a run with a separator and a text behind it. -/
theorem run_induction (isSeparator : Char → Bool) {motive : List Char → Prop}
    (single : ∀ run, (∀ character ∈ run, isSeparator character = false) → motive run)
    (cut : ∀ run separator rest, (∀ character ∈ run, isSeparator character = false) →
      isSeparator separator = true → motive rest → motive (run ++ separator :: rest))
    (text : List Char) : motive text := by
  have behind : ∀ (text run : List Char), (∀ character ∈ run, isSeparator character = false) →
      motive (run ++ text) := by
    intro text
    induction text with
    | nil =>
        intro run free
        rw [List.append_nil]
        exact single run free
    | cons character rest inductionHypothesis =>
        intro run free
        cases separates : isSeparator character with
        | true =>
            apply cut run character rest free separates
            exact inductionHypothesis [] fun other impossible => absurd impossible List.not_mem_nil
        | false =>
            have longer : ∀ other ∈ run ++ [character], isSeparator other = false := by
              intro other member
              rcases List.mem_append.1 member with inRun | isLast
              · exact free other inRun
              · rw [List.mem_singleton.1 isLast]
                exact separates
            have joined := inductionHypothesis (run ++ [character]) longer
            rwa [List.append_assoc] at joined
  exact behind text [] fun other impossible => absurd impossible List.not_mem_nil

section Keeps

variable (keeps : Keeps change)
include keeps

theorem mapRuns_nil : mapRuns isSeparator change [] = [] :=
  keeps.empty

theorem mapRuns_ne_nil {text : List Char} (some : text ≠ []) :
    mapRuns isSeparator change text ≠ [] := by
  induction text using run_induction isSeparator with
  | single run free =>
      rw [mapRuns_of_free free]
      exact keeps.nonempty some
  | cut run separator rest free separates _ =>
      rw [mapRuns_append_separator free separates]
      exact List.append_ne_nil_of_right_ne_nil _ (List.cons_ne_nil _ _)

theorem adds_mapRuns {text : List Char} {character : Char}
    (member : character ∈ mapRuns isSeparator change text) :
    character ∈ text ∨ isPlain character = true := by
  induction text using run_induction isSeparator with
  | single run free =>
      rw [mapRuns_of_free free] at member
      exact keeps.adds member
  | cut run separator rest free separates inductionHypothesis =>
      rw [mapRuns_append_separator free separates, List.mem_append, List.mem_cons] at member
      rw [List.mem_append, List.mem_cons]
      rcases member with inRun | isSeparator | inRest
      · exact (keeps.adds inRun).imp_left Or.inl
      · exact Or.inl (Or.inr (Or.inl isSeparator))
      · exact (inductionHypothesis inRest).imp_left fun inRest => Or.inr (Or.inr inRest)

theorem keeps_mapRuns
    (noBlank : ∀ character, isSeparator character = true → isBlank character = false) :
    Keeps (mapRuns isSeparator change) where
  empty := mapRuns_nil keeps
  nonempty := mapRuns_ne_nil keeps
  adds := adds_mapRuns keeps
  starts := by
    intro text starts
    induction text using run_induction isSeparator with
    | single run free =>
        rw [mapRuns_of_free free]
        exact keeps.starts starts
    | cut run separator rest free separates _ =>
        rw [mapRuns_append_separator free separates]
        by_cases some : run = []
        · rw [some, keeps.empty]
          intro first isFirst
          cases isFirst
          exact noBlank separator separates
        · rw [startsPlain_append (keeps.nonempty some)]
          exact keeps.starts ((startsPlain_append some _).1 starts)
  ends := by
    intro text ends
    induction text using run_induction isSeparator with
    | single run free =>
        rw [mapRuns_of_free free]
        exact keeps.ends ends
    | cut run separator rest free separates inductionHypothesis =>
        rw [mapRuns_append_separator free separates, endsPlain_append _ (List.cons_ne_nil _ _)]
        rw [endsPlain_append _ (List.cons_ne_nil _ _)] at ends
        by_cases some : rest = []
        · rw [some, mapRuns_nil keeps]
          rwa [some] at ends
        · rw [← List.singleton_append, endsPlain_append _ (mapRuns_ne_nil keeps some)]
          rw [← List.singleton_append, endsPlain_append _ some] at ends
          exact inductionHypothesis ends

end Keeps

end Runs

/-! ## Parts between commas -/

theorem not_mem_comma_of_free {run : List Char}
    (free : ∀ character ∈ run, (character == ',') = false) : ',' ∉ run :=
  fun member => absurd (free ',' member) (by decide)

theorem splitAtCommas_mapRuns {change : List Char → List Char} (keeps : Keeps change)
    (text : List Char) :
    splitAtCommas (mapRuns (· == ',') change text) = (splitAtCommas text).map change := by
  have noCommaChanged : ∀ {run : List Char}, ',' ∉ run → ',' ∉ change run := by
    intro run absent member
    rcases keeps.adds member with inRun | plain
    · exact absent inRun
    · exact absurd plain (by decide)
  induction text using run_induction (· == ',') with
  | single run free =>
      rw [mapRuns_of_free free, splitAtCommas_of_no_comma (not_mem_comma_of_free free),
        splitAtCommas_of_no_comma (noCommaChanged (not_mem_comma_of_free free))]
      rfl
  | cut run separator rest free separates inductionHypothesis =>
      obtain rfl : separator = ',' := beq_iff_eq.1 separates
      rw [mapRuns_append_separator free separates,
        splitAtCommas_append_comma (noCommaChanged (not_mem_comma_of_free free)),
        splitAtCommas_append_comma (not_mem_comma_of_free free), inductionHypothesis]
      rfl

/-! ## Lines -/

/-- The lines of a text behind a break; a carriage return takes a line feed with it. -/
def linesBehind (separator : Char) (rest : List Char) : List (List Char) :=
  if separator == '\r' && rest.head? == some '\n' then (lines rest).tail else lines rest

theorem lines_append_break {run : List Char}
    (free : ∀ character ∈ run, isLineBreak character = false) {separator : Char}
    (separates : isLineBreak separator = true) (rest : List Char) :
    lines (run ++ separator :: rest) = run :: linesBehind separator rest := by
  induction run with
  | nil =>
      rw [List.nil_append, lines_cons, linesBehind]
      split
      · rename_i both
        rw [Bool.and_eq_true, beq_iff_eq, beq_iff_eq] at both
        obtain ⟨later, rfl⟩ : ∃ later, rest = '\n' :: later :=
          ⟨rest.tail, List.eq_cons_of_mem_head? both.2⟩
        rw [lines_lineFeed_cons]
        rfl
      · rfl
  | cons character others inductionHypothesis =>
      have othersFree : ∀ other ∈ others, isLineBreak other = false := fun other member =>
        free other (List.mem_cons_of_mem character member)
      rw [List.cons_append, lines_cons_of_not_isLineBreak (free character List.mem_cons_self),
        inductionHypothesis othersFree]
      rfl

theorem head?_ne_lineFeed {run : List Char}
    (free : ∀ character ∈ run, isLineBreak character = false) :
    (run.head? == some '\n') = false := by
  apply Bool.eq_false_iff.2
  intro isFirst
  exact absurd (free '\n' (List.mem_of_head? (beq_iff_eq.1 isFirst))) (by decide)

section Lines

variable {change : List Char → List Char} (empty : change [] = [])
  (nonempty : ∀ {line : List Char}, line ≠ [] → change line ≠ [])
  (keepsFree : ∀ {line : List Char}, (∀ character ∈ line, isLineBreak character = false) →
    ∀ character ∈ change line, isLineBreak character = false)
include empty nonempty keepsFree

theorem head?_mapRuns_lines (text : List Char) :
    ((mapRuns isLineBreak change text).head? == some '\n') = (text.head? == some '\n') := by
  induction text using run_induction isLineBreak with
  | single run free =>
      rw [mapRuns_of_free free, head?_ne_lineFeed free, head?_ne_lineFeed (keepsFree free)]
  | cut run separator rest free separates _ =>
      rw [mapRuns_append_separator free separates]
      by_cases some : run = []
      · rw [some, empty]
        rfl
      · rw [List.head?_append_of_ne_nil _ some, List.head?_append_of_ne_nil _ (nonempty some),
          head?_ne_lineFeed free, head?_ne_lineFeed (keepsFree free)]

/-- If each line of a text is changed, the lines are the changed lines. -/
theorem lines_mapRuns (text : List Char) :
    lines (mapRuns isLineBreak change text) = (lines text).map change := by
  induction text using run_induction isLineBreak with
  | single run free =>
      rw [mapRuns_of_free free]
      by_cases some : run = []
      · rw [some, empty]
        rfl
      · rw [lines_of_not_isLineBreak some free,
          lines_of_not_isLineBreak (nonempty some) (keepsFree free)]
        rfl
  | cut run separator rest free separates inductionHypothesis =>
      have sameBehind : linesBehind separator (mapRuns isLineBreak change rest) =
          (linesBehind separator rest).map change := by
        rw [linesBehind, linesBehind, head?_mapRuns_lines empty nonempty keepsFree,
          inductionHypothesis]
        split
        · exact List.map_tail.symm
        · rfl
      rw [mapRuns_append_separator free separates, lines_append_break (keepsFree free) separates,
        lines_append_break free separates, sameBehind]
      rfl

end Lines

/-! ## Words -/

/-- The blanks behind the first word. -/
def gap (text : List Char) : List Char :=
  (text.dropWhile fun character => !isBlank character).takeWhile isBlank

/-- A text with what follows its first word changed. -/
def mapAfterWord (change : List Char → List Char) (text : List Char) : List Char :=
  word text ++ gap text ++ change (afterWord text)

theorem word_append_gap (text : List Char) : word text ++ gap text ++ afterWord text = text := by
  rw [List.append_assoc, gap, afterWord, trimStart, List.takeWhile_append_dropWhile, word,
    List.takeWhile_append_dropWhile]

theorem isBlank_of_mem_gap {text : List Char} {character : Char} (member : character ∈ gap text) :
    isBlank character = true :=
  isBlank_of_mem_takeWhile member

theorem startsPlain_word (text : List Char) : StartsPlain (word text) :=
  startsPlain_of_free fun _ => not_isBlank_of_mem_word

theorem startsPlain_afterWord (text : List Char) : StartsPlain (afterWord text) :=
  startsPlain_trimStart _

/-- Only blanks end a word. -/
theorem afterWord_of_no_gap {text : List Char} (noGap : gap text = []) : afterWord text = [] := by
  cases left : text.dropWhile fun character => !isBlank character with
  | nil =>
      rw [afterWord, left]
      rfl
  | cons first rest =>
      have isFirst := List.head?_dropWhile_not (fun character => !isBlank character) text
      rw [left, List.head?_cons] at isFirst
      have blank : isBlank first = true := by simpa using isFirst
      rw [gap, left, List.takeWhile_cons_of_pos blank] at noGap
      cases noGap

section AfterWord

variable {change : List Char → List Char} (keeps : Keeps change)
include keeps

theorem mapAfterWord_of_no_gap {text : List Char} (noGap : gap text = []) :
    mapAfterWord change text = word text := by
  rw [mapAfterWord, noGap, afterWord_of_no_gap noGap, keeps.empty, List.append_nil,
    List.append_nil]

theorem word_mapAfterWord (text : List Char) : word (mapAfterWord change text) = word text := by
  have noBlank : ∀ character ∈ word text, isBlank character = false :=
    fun _ => not_isBlank_of_mem_word
  cases isGap : gap text with
  | nil => rw [mapAfterWord_of_no_gap keeps isGap, word_of_no_blank noBlank]
  | cons blank blanks =>
      have isFirst : blank ∈ gap text := by
        rw [isGap]
        exact List.mem_cons_self
      have isBlanking : isBlank blank = true := isBlank_of_mem_gap isFirst
      rw [mapAfterWord, isGap, List.append_assoc, List.cons_append,
        word_append_blank noBlank isBlanking]

theorem afterWord_mapAfterWord (text : List Char) :
    afterWord (mapAfterWord change text) = change (afterWord text) := by
  have noBlank : ∀ character ∈ word text, isBlank character = false :=
    fun _ => not_isBlank_of_mem_word
  cases isGap : gap text with
  | nil =>
      rw [mapAfterWord_of_no_gap keeps isGap, afterWord_of_no_gap isGap, keeps.empty,
        afterWord_of_no_blank noBlank]
  | cons blank blanks =>
      have allBlank : ∀ character ∈ blank :: blanks, isBlank character = true := by
        intro character member
        rw [← isGap] at member
        exact isBlank_of_mem_gap member
      rw [mapAfterWord, isGap, List.append_assoc, List.cons_append,
        afterWord_append_blank noBlank (allBlank blank List.mem_cons_self),
        trimStart_append_of_blanks fun character member =>
          allBlank character (List.mem_cons_of_mem blank member),
        trimStart_of_startsPlain (keeps.starts (startsPlain_afterWord text))]

theorem keeps_mapAfterWord : Keeps (mapAfterWord change) where
  empty := by
    rw [mapAfterWord_of_no_gap keeps rfl]
    rfl
  nonempty := by
    intro text some empty
    rw [mapAfterWord, List.append_eq_nil_iff, List.append_eq_nil_iff] at empty
    obtain ⟨⟨noWord, noGap⟩, _⟩ := empty
    apply some
    rw [← word_append_gap text, noWord, noGap, afterWord_of_no_gap noGap]
    rfl
  adds := by
    intro text character member
    have parts : character ∈ word text ++ gap text ++ afterWord text ↔ character ∈ text := by
      rw [word_append_gap]
    simp only [List.mem_append] at parts
    rw [mapAfterWord, List.mem_append, List.mem_append] at member
    rcases member with (inWord | inGap) | inChanged
    · exact Or.inl (parts.1 (Or.inl (Or.inl inWord)))
    · exact Or.inl (parts.1 (Or.inl (Or.inr inGap)))
    · exact (keeps.adds inChanged).imp_left fun isAfter => parts.1 (Or.inr isAfter)
  starts := by
    intro text starts
    cases text with
    | nil =>
        rw [mapAfterWord_of_no_gap keeps rfl]
        exact starts
    | cons first rest =>
        have some : word (first :: rest) ≠ [] := by
          rw [word, List.takeWhile_cons_of_pos (by simp [starts first rfl])]
          exact List.cons_ne_nil _ _
        rw [mapAfterWord, List.append_assoc, startsPlain_append some]
        exact startsPlain_word (first :: rest)
  ends := by
    intro text ends
    have whole := word_append_gap text
    by_cases nothing : afterWord text = []
    · rw [nothing, List.append_nil] at whole
      rw [mapAfterWord, nothing, keeps.empty, List.append_nil, whole]
      exact ends
    · rw [← whole, endsPlain_append _ nothing] at ends
      rw [mapAfterWord, endsPlain_append _ (keeps.nonempty nothing)]
      exact keeps.ends ends

end AfterWord

/-! ## Code and comment -/

/-- A line with its code changed, between the same blanks and before the same comment. -/
def mapCode (change : List Char → List Char) (line : List Char) : List Char :=
  mapTrimmed change (line.takeWhile fun character => character != ';') ++
    line.dropWhile fun character => character != ';'

section Code

variable {change : List Char → List Char} (keeps : Keeps change)
include keeps

theorem codeOf_mapCode (line : List Char) : codeOf (mapCode change line) = change (codeOf line) := by
  have noComment : ∀ character ∈ mapTrimmed change (line.takeWhile fun character =>
      character != ';'), (character != ';') = true := by
    intro character member
    rcases (keeps_mapTrimmed keeps).adds member with inCode | plain
    · exact List.all_eq_true.1 List.all_takeWhile character inCode
    · rw [bne_iff_ne]
      exact ne_of_isPlain plain (by decide)
  have comment : (line.dropWhile fun character => character != ';').takeWhile
      (fun character => character != ';') = [] := by
    cases left : line.dropWhile fun character => character != ';' with
    | nil => rfl
    | cons first rest =>
        have fails := List.head?_dropWhile_not (fun character => character != ';') line
        rw [left] at fails
        exact List.takeWhile_cons_of_neg (by simpa using fails)
  rw [codeOf, mapCode, List.takeWhile_append_of_pos noComment, comment, List.append_nil,
    trim_mapTrimmed keeps]
  rfl

theorem mapCode_nil : mapCode change [] = [] := by
  have nothing : mapTrimmed change [] = [] := mapTrimmed_nil keeps
  rw [mapCode, List.takeWhile_nil, nothing]
  rfl

theorem mapCode_ne_nil {line : List Char} (some : line ≠ []) : mapCode change line ≠ [] := by
  intro empty
  rw [mapCode, List.append_eq_nil_iff] at empty
  apply some
  rw [← List.takeWhile_append_dropWhile (p := fun character => character != ';') (l := line),
    empty.2, List.append_nil]
  by_contra code
  exact mapTrimmed_ne_nil keeps code empty.1

theorem adds_mapCode {line : List Char} {character : Char}
    (member : character ∈ mapCode change line) :
    character ∈ line ∨ isPlain character = true := by
  rw [mapCode, List.mem_append] at member
  rcases member with inCode | inComment
  · exact (adds_mapTrimmed keeps inCode).imp_left fun inFront =>
      (List.takeWhile_prefix _).subset inFront
  · exact Or.inl ((List.dropWhile_suffix _).subset inComment)

theorem isLineBreak_of_mem_mapCode {line : List Char}
    (free : ∀ character ∈ line, isLineBreak character = false) :
    ∀ character ∈ mapCode change line, isLineBreak character = false := by
  intro character member
  rcases adds_mapCode keeps member with inLine | plain
  · exact free character inLine
  · exact isLineBreak_of_isPlain plain

theorem lines_mapCode (source : List Char) :
    lines (mapRuns isLineBreak (mapCode change) source) = (lines source).map (mapCode change) :=
  lines_mapRuns (mapCode_nil keeps) (mapCode_ne_nil keeps) (isLineBreak_of_mem_mapCode keeps) source

end Code

end Intel8085.Source
