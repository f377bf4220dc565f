import Intel8085.Proofs.Text.Capitals
import Intel8085.Text.Blank
import Intel8085.Text.LineBreak
import Mathlib.Data.List.Basic

/-!
# Characters without case

The characters at which source text is cut are their own capitals, and no other character has one of
them in its capital.  So a test for such characters says the same of a character and of its capital
(`Caseless`), and what it finds in front of a text is found in front of its capitals.
-/

set_option autoImplicit false

namespace Intel8085.Text

/-- The code points of blanks, of line breaks, and of the comma, the colon and the semicolon. -/
def markCodes : List Nat :=
  List.range' 0x09 5 ++ List.range' 0x1C 5 ++ [0x2C, 0x3A, 0x3B, 0x85, 0xA0, 0x1680] ++
    List.range' 0x2000 11 ++ [0x2028, 0x2029, 0x202F, 0x205F, 0x3000]

/-- The characters at which source text is cut into lines, code, words and operands. -/
def isMark (character : Char) : Bool :=
  markCodes.contains character.toNat

/-- The capitals of letters beyond ASCII. -/
def capitalsBeyondAscii : List Char :=
  (caseRuns.flatMap fun run => run.codes.map run.capitalOf) ++
    capitalGroups.flatMap fun entry => entry.2.map Char.ofNat

/-- The test says the same of a character and of all that its capital is made of. -/
def Caseless (test : Char → Bool) : Prop :=
  ∀ character letter, letter ∈ capital character → test letter = test character

/-! ## Marks -/

theorem isMark_iff {character : Char} : isMark character = true ↔ character.toNat ∈ markCodes :=
  List.contains_iff_mem

theorem isMark_of_isBlank {character : Char} (blank : isBlank character = true) :
    isMark character = true := by
  simp only [isBlank, Bool.or_eq_true, Bool.and_eq_true, decide_eq_true_eq, beq_iff_eq] at blank
  rw [isMark_iff]
  simp only [markCodes, List.mem_append, List.mem_range'_1, List.mem_cons, List.not_mem_nil,
    or_false]
  omega

theorem isMark_of_isLineBreak {character : Char} (breaks : isLineBreak character = true) :
    isMark character = true := by
  simp only [isLineBreak, Bool.or_eq_true, Bool.and_eq_true, decide_eq_true_eq, beq_iff_eq]
    at breaks
  rw [isMark_iff]
  simp only [markCodes, List.mem_append, List.mem_range'_1, List.mem_cons, List.not_mem_nil,
    or_false]
  omega

theorem smallLetters_unmarked :
    (let marks := marked smallLetters
     markCodes.all fun code => !marks.testBit code) = true := by
  decide +kernel

theorem capitalsBeyondAscii_unmarked :
    (let marks := marked (capitalsBeyondAscii.map Char.toNat)
     markCodes.all fun code => !marks.testBit code) = true := by
  decide +kernel

theorem capital_of_isMark {character : Char} (mark : isMark character = true) :
    capital character = [character] := by
  apply capital_of_not_mem_smallLetters
  intro small
  have unmarked := List.all_eq_true.1 smallLetters_unmarked _ (isMark_iff.1 mark)
  rw [marked, testBit_foldl_marks (Or.inr small)] at unmarked
  cases unmarked

theorem eq_of_isMark_of_mem_capital {character letter : Char} (mark : isMark letter = true)
    (member : letter ∈ capital character) : letter = character := by
  have noCapital : letter ∉ capitalsBeyondAscii := by
    intro isCapital
    have unmarked := List.all_eq_true.1 capitalsBeyondAscii_unmarked _ (isMark_iff.1 mark)
    rw [marked, testBit_foldl_marks (Or.inr (List.mem_map_of_mem isCapital))] at unmarked
    cases unmarked
  rw [capitalsBeyondAscii, List.mem_append, not_or] at noCapital
  rcases capital_cases character with
    ⟨ascii, isUpper⟩ | ⟨run, isRun, isCode, isCapital⟩ | ⟨group, isEntry, isGroup⟩ | alone
  · have every : ∀ code : Fin 0x80, isMark (Char.ofNat code).toUpper = true →
        (Char.ofNat code).toUpper = Char.ofNat code := by decide +kernel
    have same := every ⟨character.toNat, ascii⟩
    rw [Char.ofNat_toNat] at same
    rw [isUpper, List.mem_singleton] at member
    rw [member] at mark ⊢
    exact same mark
  · rw [isCapital, List.mem_singleton] at member
    exact absurd (List.mem_flatMap.2
      ⟨run, isRun, List.mem_map.2 ⟨character.toNat, isCode, member.symm⟩⟩) noCapital.1
  · rw [isGroup] at member
    exact absurd (List.mem_flatMap.2 ⟨_, isEntry, member⟩) noCapital.2
  · rw [alone, List.mem_singleton] at member
    exact member

/-- A test that only marks pass does not depend on the case. -/
theorem caseless_of_marks {test : Char → Bool}
    (marks : ∀ character, test character = true → isMark character = true) : Caseless test := by
  intro character letter member
  cases passes : test character with
  | true =>
      rw [capital_of_isMark (marks character passes), List.mem_singleton] at member
      rw [member, passes]
  | false =>
      apply Bool.eq_false_iff.2
      intro letterPasses
      rw [eq_of_isMark_of_mem_capital (marks letter letterPasses) member, passes] at letterPasses
      cases letterPasses

theorem Caseless.not {test : Char → Bool} (caseless : Caseless test) :
    Caseless fun character => !test character :=
  fun character letter member => congrArg Bool.not (caseless character letter member)

theorem caseless_isBlank : Caseless isBlank :=
  caseless_of_marks fun _ => isMark_of_isBlank

theorem caseless_isLineBreak : Caseless isLineBreak :=
  caseless_of_marks fun _ => isMark_of_isLineBreak

theorem caseless_beq {mark : Char} (isMarked : isMark mark = true) : Caseless (· == mark) := by
  apply caseless_of_marks
  intro character same
  rwa [beq_iff_eq.1 same]

/-! ## Capitals of a text -/

theorem capitals_cons (character : Char) (rest : List Char) :
    capitals (character :: rest) = capital character ++ capitals rest :=
  List.flatMap_cons

theorem capitals_ne_nil {text : List Char} (some : text ≠ []) : capitals text ≠ [] := by
  cases text with
  | nil => exact absurd rfl some
  | cons character rest =>
      rw [capitals_cons]
      exact List.append_ne_nil_of_left_ne_nil (capital_ne_nil character) _

theorem isEmpty_capitals (text : List Char) : (capitals text).isEmpty = text.isEmpty := by
  cases text with
  | nil => rfl
  | cons character rest =>
      rw [List.isEmpty_cons, List.isEmpty_eq_false_iff]
      exact capitals_ne_nil (List.cons_ne_nil character rest)

theorem capitals_cons_mark {mark : Char} (isMarked : isMark mark = true) (rest : List Char) :
    capitals (mark :: rest) = mark :: capitals rest := by
  rw [capitals_cons, capital_of_isMark isMarked, List.singleton_append]

theorem exists_of_getLast?_capitals {text : List Char} {letter : Char}
    (isLast : letter ∈ (capitals text).getLast?) :
    ∃ character ∈ text.getLast?, letter ∈ capital character := by
  rcases List.eq_nil_or_concat text with rfl | ⟨front, last, rfl⟩
  · cases isLast
  · have lastCapitals : capitals [last] = capital last := List.flatMap_singleton capital last
    rw [List.concat_eq_append, capitals_append, lastCapitals,
      List.getLast?_append_of_ne_nil _ (capital_ne_nil last)] at isLast
    exact ⟨last, by simp, List.mem_of_getLast? isLast⟩

section Caseless

variable {test : Char → Bool} (caseless : Caseless test)
include caseless

theorem forall_mem_capitals {text : List Char} {result : Bool}
    (passes : ∀ character ∈ text, test character = result) :
    ∀ letter ∈ capitals text, test letter = result := by
  intro letter member
  obtain ⟨character, inText, isCapital⟩ := List.mem_flatMap.1 member
  rw [caseless character letter isCapital, passes character inText]

/-- Where the test fails in a text, it fails in the first letter of the capital. -/
theorem exists_capital_of_fails {character : Char} (fails : test character = false) :
    ∃ letter others, capital character = letter :: others ∧ test letter = false := by
  obtain ⟨letter, others, isCapital⟩ := List.exists_cons_of_ne_nil (capital_ne_nil character)
  refine ⟨letter, others, isCapital, ?_⟩
  rw [caseless character letter (isCapital ▸ List.mem_cons_self), fails]

theorem takeWhile_capitals (text : List Char) :
    (capitals text).takeWhile test = capitals (text.takeWhile test) := by
  induction text with
  | nil => rfl
  | cons character rest inductionHypothesis =>
      rw [capitals_cons]
      cases passes : test character with
      | true =>
          have all : ∀ letter ∈ capital character, test letter = true := fun letter member =>
            (caseless character letter member).trans passes
          rw [List.takeWhile_append_of_pos all, inductionHypothesis,
            List.takeWhile_cons_of_pos passes, capitals_cons]
      | false =>
          obtain ⟨letter, others, isCapital, fails⟩ := exists_capital_of_fails caseless passes
          rw [isCapital, List.cons_append, List.takeWhile_cons_of_neg (by simp [fails]),
            List.takeWhile_cons_of_neg (by simp [passes])]
          rfl

theorem dropWhile_capitals (text : List Char) :
    (capitals text).dropWhile test = capitals (text.dropWhile test) := by
  have parts : capitals (text.takeWhile test) ++ (capitals text).dropWhile test =
      capitals (text.takeWhile test) ++ capitals (text.dropWhile test) := by
    rw [← takeWhile_capitals caseless, List.takeWhile_append_dropWhile,
      takeWhile_capitals caseless, ← capitals_append, List.takeWhile_append_dropWhile]
  exact List.append_cancel_left parts

end Caseless

end Intel8085.Text
