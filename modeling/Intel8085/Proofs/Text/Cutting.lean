import Intel8085.Text.Blank
import Intel8085.Text.LineBreak

/-!
# Cutting text that was put together

Lines that hold no break are had back from the text that a line feed joins them to
(`lines_intercalate`), and the first word of a text from that word with a blank behind it
(`word_append_blank`, `afterWord_append_blank`).  A text whose first and last characters are no
blanks is trimmed already.
-/

set_option autoImplicit false

namespace Intel8085.Text

/-! ## Lines -/

theorem lines_cons_of_not_isLineBreak {character : Char} (plain : isLineBreak character = false)
    (rest : List Char) : lines (character :: rest) = widenFirst character (lines rest) := by
  have notReturn : (character == '\r') = false := by
    apply Bool.eq_false_iff.2
    intro same
    rw [beq_iff_eq.1 same] at plain
    exact absurd plain (by decide)
  rw [lines_cons, notReturn, plain]
  rfl

theorem lines_lineFeed_cons (rest : List Char) : lines ('\n' :: rest) = [] :: lines rest := by
  rw [lines_cons]
  rfl

theorem lines_append_lineFeed {text : List Char}
    (plain : ∀ character ∈ text, isLineBreak character = false) (rest : List Char) :
    lines (text ++ '\n' :: rest) = text :: lines rest := by
  induction text with
  | nil => exact lines_lineFeed_cons rest
  | cons character others inductionHypothesis =>
      have othersPlain : ∀ other ∈ others, isLineBreak other = false := by
        intro other member
        exact plain other (List.mem_cons_of_mem character member)
      rw [List.cons_append, lines_cons_of_not_isLineBreak (plain character List.mem_cons_self),
        inductionHypothesis othersPlain]
      rfl

theorem lines_of_not_isLineBreak {text : List Char} (nonempty : text ≠ [])
    (plain : ∀ character ∈ text, isLineBreak character = false) : lines text = [text] := by
  induction text with
  | nil => exact absurd rfl nonempty
  | cons character others inductionHypothesis =>
      rw [lines_cons_of_not_isLineBreak (plain character List.mem_cons_self)]
      cases others with
      | nil => rfl
      | cons next later =>
          have laterPlain : ∀ other ∈ next :: later, isLineBreak other = false := by
            intro other member
            exact plain other (List.mem_cons_of_mem character member)
          rw [inductionHypothesis (List.cons_ne_nil next later) laterPlain]
          rfl

theorem widenFirst_append {texts : List (List Char)} (some : texts ≠ []) (character : Char)
    (others : List (List Char)) :
    widenFirst character (texts ++ others) = widenFirst character texts ++ others := by
  cases texts with
  | nil => exact absurd rfl some
  | cons text rest => rfl

theorem lines_ne_nil {text : List Char} (some : text ≠ []) : lines text ≠ [] := by
  induction text with
  | nil => exact absurd rfl some
  | cons character rest inductionHypothesis =>
      rw [lines_cons]
      split
      · rename_i pair
        apply inductionHypothesis
        rintro rfl
        simp at pair
      · split
        · exact List.cons_ne_nil _ _
        · cases lines rest <;> exact List.cons_ne_nil _ _

/-- A line feed behind a text leaves the lines of the text, also where it ends with a carriage return
that takes the line feed in, or with another break. -/
theorem lines_prefix (front back : List Char) : lines front <+: lines (front ++ '\n' :: back) := by
  induction front with
  | nil => exact List.nil_prefix
  | cons character rest inductionHypothesis =>
      rw [List.cons_append, lines_cons, lines_cons]
      cases rest with
      | nil =>
          rw [List.nil_append, lines_lineFeed_cons]
          cases isReturn : character == '\r' with
          | true =>
              rw [beq_iff_eq.1 isReturn]
              exact ⟨lines back, rfl⟩
          | false =>
              cases breaks : isLineBreak character with
              | true => exact ⟨[] :: lines back, rfl⟩
              | false => exact ⟨lines back, rfl⟩
      | cons next others =>
          obtain ⟨later, whole⟩ := inductionHypothesis
          rw [← whole, List.cons_append, List.head?_cons, List.head?_cons]
          split
          · exact List.prefix_append _ _
          · split
            · exact ⟨later, rfl⟩
            · exact ⟨later, (widenFirst_append (lines_ne_nil (List.cons_ne_nil _ _)) _ _).symm⟩

/-- An empty text at the end would open no line, so no text may be empty. -/
theorem lines_intercalate {texts : List (List Char)} (nonempty : ∀ text ∈ texts, text ≠ [])
    (plain : ∀ text ∈ texts, ∀ character ∈ text, isLineBreak character = false) :
    lines (List.intercalate ['\n'] texts) = texts := by
  induction texts with
  | nil => rfl
  | cons text others inductionHypothesis =>
      have textPlain := plain text List.mem_cons_self
      cases others with
      | nil =>
          rw [List.intercalate_singleton]
          exact lines_of_not_isLineBreak (nonempty text List.mem_cons_self) textPlain
      | cons next later =>
          have laterLines := inductionHypothesis
            (fun other member => nonempty other (List.mem_cons_of_mem text member))
            (fun other member => plain other (List.mem_cons_of_mem text member))
          rw [List.intercalate_cons_cons, List.append_assoc, List.singleton_append,
            lines_append_lineFeed textPlain, laterLines]

/-! ## Words -/

theorem passes_of_no_blank {text : List Char}
    (plain : ∀ character ∈ text, isBlank character = false) :
    ∀ character ∈ text, (!isBlank character) = true := by
  intro character member
  simp [plain character member]

theorem word_append_blank {text : List Char} {blank : Char}
    (plain : ∀ character ∈ text, isBlank character = false) (isBlanking : isBlank blank = true)
    (rest : List Char) : word (text ++ blank :: rest) = text := by
  rw [word, List.takeWhile_append_of_pos (passes_of_no_blank plain),
    List.takeWhile_cons_of_neg (by simp [isBlanking]),
    List.append_nil]

theorem word_of_no_blank {text : List Char}
    (plain : ∀ character ∈ text, isBlank character = false) : word text = text := by
  rw [← List.append_nil text, word, List.takeWhile_append_of_pos (passes_of_no_blank plain)]
  rfl

theorem trimStart_cons {first : Char} (plain : isBlank first = false) (rest : List Char) :
    trimStart (first :: rest) = first :: rest := by
  rw [trimStart, List.dropWhile_cons_of_neg (by simp [plain])]

theorem afterWord_append_blank {text rest : List Char} {blank : Char}
    (plain : ∀ character ∈ text, isBlank character = false) (isBlanking : isBlank blank = true) :
    afterWord (text ++ blank :: rest) = trimStart rest := by
  rw [afterWord, List.dropWhile_append_of_pos (passes_of_no_blank plain),
    List.dropWhile_cons_of_neg (by simp [isBlanking]), trimStart, trimStart,
    List.dropWhile_cons_of_pos isBlanking]

theorem afterWord_of_no_blank {text : List Char}
    (plain : ∀ character ∈ text, isBlank character = false) : afterWord text = [] := by
  rw [← List.append_nil text, afterWord, List.dropWhile_append_of_pos (passes_of_no_blank plain)]
  rfl

theorem trimEnd_append_singleton {last : Char} (plain : isBlank last = false) (front : List Char) :
    trimEnd (front ++ [last]) = front ++ [last] := by
  rw [trimEnd, List.reverse_append, List.reverse_singleton, List.singleton_append,
    List.dropWhile_cons_of_neg (by simp [plain])]
  simp

theorem trim_eq_self {text : List Char} (headPlain : ∀ first ∈ text.head?, isBlank first = false)
    (lastPlain : ∀ last ∈ text.getLast?, isBlank last = false) : trim text = text := by
  cases text with
  | nil => rfl
  | cons first rest =>
      rw [trim, trimStart_cons (headPlain first rfl)]
      have split := List.dropLast_concat_getLast (List.cons_ne_nil first rest)
      rw [← split]
      exact trimEnd_append_singleton (lastPlain _ (List.getLast?_eq_some_getLast _)) _

end Intel8085.Text
