import Intel8085.Disassembly.HexInput
import Intel8085.InstructionSet.Standard
import Intel8085.Proofs.Text.Digits

/-!
# Images given as hexadecimal tokens

A token is a mark, which may be missing, and two digits of either case for each of one or more bytes
(`IsToken`).  Tokens that stand one behind the other, with blanks, commas and semicolons between
them or nothing at all, are a text of their bytes (`IsJoined`).

Marks are taken out of the text as a whole, wherever a zero and a letter meet.  No letter of a mark
is a digit or a separator, so a letter only ever stands behind the zero of its own mark, and what is
taken out is no digit of any byte, also where a token that ends with a zero has a mark behind it.
-/

set_option autoImplicit false

namespace Intel8085.Disassembly

open Intel8085.Text

/-- The text has two digits for each of the bytes. -/
inductive IsBytes : List Char → List UInt8 → Prop where
  | nil : IsBytes [] []
  | cons {high low : Char} {upper lower : Nat} (isHigh : IsHexDigit high upper)
      (isLow : IsHexDigit low lower) {text : List Char} {bytes : List UInt8}
      (others : IsBytes text bytes) :
      IsBytes (high :: low :: text) (UInt8.ofNat (16 * upper + lower) :: bytes)

/-- The text is one or more bytes, which may have a mark in front of them. -/
inductive IsToken : List Char → List UInt8 → Prop where
  | plain {text : List Char} {bytes : List UInt8} (isBytes : IsBytes text bytes)
      (some : bytes ≠ []) : IsToken text bytes
  | marked {letter : Char} (isMark : letter = 'x' ∨ letter = 'X') {text : List Char}
      {bytes : List UInt8} (isBytes : IsBytes text bytes) (some : bytes ≠ []) :
      IsToken ('0' :: letter :: text) bytes

/-- The text is tokens with what may stand between them, and the bytes are those of the tokens in
their order. -/
inductive IsJoined : List Char → List UInt8 → Prop where
  | nil : IsJoined [] []
  | cons {token gap rest : List Char} {bytes others : List UInt8} (isToken : IsToken token bytes)
      (isGap : ∀ character ∈ gap, isBlank character = true ∨ character = ',' ∨ character = ';')
      (joined : IsJoined rest others) : IsJoined (token ++ gap ++ rest) (bytes ++ others)

/-- The text is the bytes, with any marks of the given letters and any separators between one byte
and the next. -/
inductive Interleaves (letters : List Char) : List Char → List UInt8 → Prop where
  | nil : Interleaves letters [] []
  | byte {high low : Char} {upper lower : Nat} (isHigh : IsHexDigit high upper)
      (isLow : IsHexDigit low lower) {text : List Char} {bytes : List UInt8}
      (rest : Interleaves letters text bytes) :
      Interleaves letters (high :: low :: text) (UInt8.ofNat (16 * upper + lower) :: bytes)
  | mark {letter : Char} (allowed : letter ∈ letters) {text : List Char} {bytes : List UInt8}
      (rest : Interleaves letters text bytes) : Interleaves letters ('0' :: letter :: text) bytes
  | separator {character : Char} (separates : isSeparator character = true) {text : List Char}
      {bytes : List UInt8} (rest : Interleaves letters text bytes) :
      Interleaves letters (character :: text) bytes

/-! ## Tokens -/

section Tokens

variable {letters : List Char}

theorem Interleaves.bytes_append {text rest : List Char} {bytes others : List UInt8}
    (isBytes : IsBytes text bytes) (interleaves : Interleaves letters rest others) :
    Interleaves letters (text ++ rest) (bytes ++ others) := by
  induction isBytes with
  | nil => exact interleaves
  | cons isHigh isLow _ inductionHypothesis => exact .byte isHigh isLow inductionHypothesis

theorem Interleaves.gap_append {gap rest : List Char} {others : List UInt8}
    (isGap : ∀ character ∈ gap, isSeparator character = true)
    (interleaves : Interleaves letters rest others) :
    Interleaves letters (gap ++ rest) others := by
  induction gap with
  | nil => exact interleaves
  | cons character gap inductionHypothesis =>
      refine .separator (isGap character List.mem_cons_self) (inductionHypothesis ?_)
      exact fun other member => isGap other (List.mem_cons_of_mem character member)

theorem isSeparator_iff {character : Char} :
    isSeparator character = true ↔
      isBlank character = true ∨ character = ',' ∨ character = ';' := by
  rw [isSeparator, Bool.or_eq_true, Bool.or_eq_true, beq_iff_eq, beq_iff_eq, or_assoc]

theorem interleaves_append {text behind : List Char} {bytes : List UInt8}
    (joined : IsJoined text bytes) (interleaves : Interleaves ['x', 'X'] behind []) :
    Interleaves ['x', 'X'] (text ++ behind) bytes := by
  induction joined with
  | nil => exact interleaves
  | cons isToken isGap _ inductionHypothesis =>
      rw [List.append_assoc, List.append_assoc]
      have others := inductionHypothesis.gap_append fun character member =>
        isSeparator_iff.2 (isGap character member)
      cases isToken with
      | plain isBytes _ => exact others.bytes_append isBytes
      | marked isMark isBytes _ =>
          exact .mark (by simpa using isMark) (others.bytes_append isBytes)

end Tokens

/-! ## Marks -/

section Marks

variable {letter : Char} (notZero : letter ≠ '0')
include notZero

theorem atLetter_foldr (text : List Char) :
    (text.foldr (MarkScan.add letter) { kept := [], atLetter := false }).atLetter =
      (text.head? == some letter) := by
  cases text with
  | nil => rfl
  | cons character rest =>
      rw [List.foldr_cons, MarkScan.add, List.head?_cons]
      split
      · rename_i isMark
        rw [Bool.and_eq_true, beq_iff_eq] at isMark
        simp [isMark.1, Ne.symm notZero]
      · rfl

theorem eraseMarks_cons {character : Char} {rest : List Char}
    (unmarked : character ≠ '0' ∨ rest.head? ≠ some letter) :
    eraseMarks letter (character :: rest) = character :: eraseMarks letter rest := by
  have noMark : (character == '0' && (rest.foldr (MarkScan.add letter)
      { kept := [], atLetter := false }).atLetter) = false := by
    rw [atLetter_foldr notZero]
    rcases unmarked with notZeroHere | notLetter
    · simp [notZeroHere]
    · simp [notLetter]
  rw [eraseMarks, List.foldr_cons, MarkScan.add, if_neg (by simp [noMark]), eraseMarks]

theorem eraseMarks_mark (rest : List Char) :
    eraseMarks letter ('0' :: letter :: rest) = eraseMarks letter rest := by
  have letterKept : eraseMarks letter (letter :: rest) = letter :: eraseMarks letter rest :=
    eraseMarks_cons notZero (Or.inl notZero)
  have found := atLetter_foldr notZero (letter :: rest)
  rw [List.head?_cons, beq_self_eq_true] at found
  rw [eraseMarks] at letterKept
  rw [eraseMarks, List.foldr_cons, MarkScan.add, found]
  exact congrArg List.tail letterKept

end Marks

theorem not_isHexDigit_of_mark {letter : Char} (isMark : letter = 'x' ∨ letter = 'X')
    {digit : Nat} : ¬ IsHexDigit letter digit := by
  intro isDigit
  obtain ⟨notSmall, notCapital, _⟩ := isDigit.ne
  rcases isMark with isSmall | isCapital
  · exact notSmall isSmall
  · exact notCapital isCapital

/-- No text begins with the letter of a mark: its zero is always in front of it. -/
theorem Interleaves.head?_ne {letters : List Char} {letter : Char}
    (isMark : letter = 'x' ∨ letter = 'X') {text : List Char} {bytes : List UInt8}
    (interleaves : Interleaves letters text bytes) : text.head? ≠ some letter := by
  intro isFirst
  cases interleaves with
  | nil => cases isFirst
  | byte isHigh isLow rest =>
      cases isFirst
      exact not_isHexDigit_of_mark isMark isHigh
  | mark allowed rest =>
      cases isFirst
      rcases isMark with impossible | impossible <;> cases impossible
  | separator separates rest =>
      cases isFirst
      rcases isMark with rfl | rfl <;> cases separates

theorem Interleaves.eraseMarks {letters : List Char} {letter : Char}
    (isMark : letter = 'x' ∨ letter = 'X') {text : List Char} {bytes : List UInt8}
    (interleaves : Interleaves (letter :: letters) text bytes) :
    Interleaves letters (eraseMarks letter text) bytes := by
  have notZero : letter ≠ '0' := by rcases isMark with rfl | rfl <;> decide
  induction interleaves with
  | nil => exact .nil
  | @byte high low _ _ isHigh isLow text _ rest inductionHypothesis =>
      have notLetter : low ≠ letter := by
        rintro rfl
        exact not_isHexDigit_of_mark isMark isLow
      -- Either digit may be a zero, but neither has the letter of a mark behind it.
      rw [eraseMarks_cons notZero (Or.inr (by simpa using notLetter)),
        eraseMarks_cons notZero (Or.inr (rest.head?_ne isMark))]
      exact .byte isHigh isLow inductionHypothesis
  | @mark other allowed text _ rest inductionHypothesis =>
      by_cases same : other = letter
      · rw [same, eraseMarks_mark notZero]
        exact inductionHypothesis
      · have others : other ∈ letters := (List.mem_cons.1 allowed).resolve_left same
        rw [eraseMarks_cons notZero (Or.inr (by simpa using same)),
          eraseMarks_cons notZero (Or.inr (rest.head?_ne isMark))]
        exact .mark others inductionHypothesis
  | @separator character separates _ _ rest inductionHypothesis =>
      have digitless : character ≠ '0' := by
        rintro rfl
        cases separates
      rw [eraseMarks_cons notZero (Or.inl digitless)]
      exact .separator separates inductionHypothesis

/-! ## Bytes -/

theorem isSeparator_of_isHexDigit {character : Char} {digit : Nat}
    (isDigit : IsHexDigit character digit) : isSeparator character = false :=
  isDigit.of_all (by decide)

theorem digitOfEitherCase?_of_isHexDigit {character : Char} {digit : Nat}
    (isDigit : IsHexDigit character digit) : digitOfEitherCase? character = some digit :=
  isDigit.of_all (by decide)

theorem readPairs_of_interleaves {text : List Char} {bytes : List UInt8}
    (interleaves : Interleaves [] text bytes) (read : List UInt8) :
    readPairs read (text.filter fun character => !isSeparator character) =
      some (read.reverse ++ bytes) := by
  induction interleaves generalizing read with
  | nil => simp [readPairs]
  | @byte high low upper lower isHigh isLow _ _ rest inductionHypothesis =>
      have behind := inductionHypothesis (UInt8.ofNat (16 * upper + lower) :: read)
      rw [List.reverse_cons, List.append_assoc, List.singleton_append] at behind
      rw [List.filter_cons_of_pos (by simp [isSeparator_of_isHexDigit isHigh]),
        List.filter_cons_of_pos (by simp [isSeparator_of_isHexDigit isLow]), readPairs,
        digitOfEitherCase?_of_isHexDigit isHigh, digitOfEitherCase?_of_isHexDigit isLow]
      exact behind
  | mark allowed rest inductionHypothesis => cases allowed
  | separator separates rest inductionHypothesis =>
      rw [List.filter_cons_of_neg (by simp [separates])]
      exact inductionHypothesis read

theorem bytesOfText?_of_isJoined {front text back : List Char} {bytes : List UInt8}
    (blankFront : ∀ character ∈ front, isBlank character = true) (joined : IsJoined text bytes)
    (blankBack : ∀ character ∈ back, isBlank character = true) :
    bytesOfText? (front ++ text ++ back) = some bytes := by
  have separates : ∀ character, isBlank character = true → isSeparator character = true :=
    fun character blank => isSeparator_iff.2 (Or.inl blank)
  have behind : Interleaves ['x', 'X'] (back ++ []) [] :=
    Interleaves.nil.gap_append fun character member =>
      separates character (blankBack character member)
  rw [List.append_nil] at behind
  have whole : Interleaves ['x', 'X'] (front ++ (text ++ back)) bytes :=
    (interleaves_append joined behind).gap_append fun character member =>
      separates character (blankFront character member)
  have unmarked := (whole.eraseMarks (Or.inl rfl)).eraseMarks (Or.inr rfl)
  rw [bytesOfText?, List.append_assoc]
  exact readPairs_of_interleaves unmarked []

/-- An image given as tokens gives the lines of their bytes, wherever it starts and whatever the
limit. -/
theorem sweep_of_tokens (table : OpcodeTable) (order : ByteOrder) (limit address : Int)
    {front text back : List Char} {bytes : List UInt8}
    (blankFront : ∀ character ∈ front, isBlank character = true) (joined : IsJoined text bytes)
    (blankBack : ∀ character ∈ back, isBlank character = true) :
    sweepText? table order limit address (front ++ text ++ back) =
      some (sweep table order limit address bytes) := by
  rw [sweepText?, bytesOfText?_of_isJoined blankFront joined blankBack, Option.map_some]

/-- The first token ends with a zero and has the mark of the second right behind it. -/
theorem sweep_of_tokens_of_zero_before_mark :
    sweepText? .standard .little 0 0 " 100X3E;\n".toList =
      some (sweep .standard .little 0 0 [0x10, 0x3E]) := by
  have first : IsToken ['1', '0'] [0x10] :=
    .plain (.cons (.small (by decide : 1 < 16)) (.small (by decide : 0 < 16)) .nil) (by decide)
  have second : IsToken ['0', 'X', '3', 'E'] [0x3E] :=
    .marked (Or.inr rfl)
      (.cons (.small (by decide : 3 < 16)) (.capital (by decide : 14 < 16)) .nil) (by decide)
  have joined : IsJoined (['1', '0'] ++ [] ++ (['0', 'X', '3', 'E'] ++ [';'] ++ [])) _ :=
    .cons first (List.forall_mem_nil _)
      (.cons second (List.forall_mem_singleton.2 (Or.inr (Or.inr rfl))) .nil)
  have isSpace : ∀ character ∈ [' '], isBlank character = true :=
    List.forall_mem_singleton.2 (by decide)
  have isLineFeed : ∀ character ∈ ['\n'], isBlank character = true :=
    List.forall_mem_singleton.2 (by decide)
  exact sweep_of_tokens .standard .little 0 0 isSpace joined isLineFeed

end Intel8085.Disassembly
