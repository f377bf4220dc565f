import Intel8085.Assembly.Vocabulary
import Intel8085.Proofs.Text.Capitals

/-!
# Texts that are identifiers in capitals

A label counts in capitals, so what may be written for one is a text whose capitals are an
identifier: letters, digits and underscores, with no digit first.  Besides the letters of ASCII these
are ten letters beyond it, because their capitals are letters of ASCII
(`isIdentifier_upperCase_iff`).
-/

set_option autoImplicit false

namespace Intel8085.Assembly

open Intel8085.Text

/-- The letters beyond ASCII whose capitals are letters of ASCII: the sharp s, the dotless i, the
long s, and the ligatures `U+FB00` to `U+FB06`. -/
def borrowedLetters : List Char :=
  [0xDF, 0x131, 0x17F, 0xFB00, 0xFB01, 0xFB02, 0xFB03, 0xFB04, 0xFB05, 0xFB06].map Char.ofNat

/-- A letter of ASCII or one of some further letters, or an underscore. -/
def IsNameStart (further : List Char) (character : Char) : Prop :=
  character.isAlpha = true ∨ character = '_' ∨ character ∈ further

def IsNamePart (further : List Char) (character : Char) : Prop :=
  IsNameStart further character ∨ character.isDigit = true

/-- Letters, digits and underscores, at least one, with no digit first.  With no further letters
these are the texts that match `^[A-Za-z_][A-Za-z0-9_]*$`. -/
def IsName (further text : List Char) : Prop :=
  ∃ first rest, text = first :: rest ∧ IsNameStart further first ∧
    ∀ character ∈ rest, IsNamePart further character

/-- Further letters that a text does not use make no difference. -/
theorem isName_nil_iff {further text : List Char}
    (unused : ∀ character ∈ text, character ∉ further) : IsName [] text ↔ IsName further text := by
  have start : ∀ character ∈ text, (IsNameStart [] character ↔ IsNameStart further character) := by
    intro character member
    simp [IsNameStart, unused character member]
  constructor
  · rintro ⟨first, rest, rfl, startsName, continues⟩
    refine ⟨first, rest, rfl, (start first List.mem_cons_self).1 startsName, ?_⟩
    intro character member
    exact (continues character member).imp_left (start character (List.mem_cons_of_mem _ member)).1
  · rintro ⟨first, rest, rfl, startsName, continues⟩
    refine ⟨first, rest, rfl, (start first List.mem_cons_self).2 startsName, ?_⟩
    intro character member
    exact (continues character member).imp_left (start character (List.mem_cons_of_mem _ member)).2

/-! ## Characters of ASCII -/

theorem isIdentifierStart_toUpper_iff {character : Char} (ascii : character.toNat < 0x80) :
    isIdentifierStart character.toUpper = true ↔ IsNameStart borrowedLetters character := by
  have every : ∀ code : Fin 0x80, isIdentifierStart (Char.ofNat code).toUpper =
      ((Char.ofNat code).isAlpha || Char.ofNat code == '_' ||
        borrowedLetters.contains (Char.ofNat code)) := by decide +kernel
  have checked := every ⟨character.toNat, ascii⟩
  rw [Char.ofNat_toNat] at checked
  rw [checked, IsNameStart]
  simp [or_assoc]

theorem isIdentifierPart_toUpper_iff {character : Char} (ascii : character.toNat < 0x80) :
    isIdentifierPart character.toUpper = true ↔ IsNamePart borrowedLetters character := by
  have every : ∀ code : Fin 0x80, isIdentifierPart (Char.ofNat code).toUpper =
      (isIdentifierStart (Char.ofNat code).toUpper || (Char.ofNat code).isDigit) := by
    decide +kernel
  have checked := every ⟨character.toNat, ascii⟩
  rw [Char.ofNat_toNat] at checked
  rw [checked, Bool.or_eq_true, isIdentifierStart_toUpper_iff ascii, IsNamePart]

/-! ## Characters beyond ASCII -/

theorem caseRuns_checked :
    (caseRuns.all fun run => run.codes.all fun code =>
      !isIdentifierPart (run.capitalOf code) || borrowedLetters.contains (Char.ofNat code)) =
        true := by
  decide +kernel

theorem capitalGroups_checked :
    (capitalGroups.all fun entry =>
      !(entry.2.map Char.ofNat).all isIdentifierPart ||
        borrowedLetters.contains (Char.ofNat entry.1)) = true := by
  decide +kernel

theorem head_capital_of_mem_borrowedLetters {character : Char}
    (member : character ∈ borrowedLetters) :
    (capital character).head?.any isIdentifierStart = true := by
  have every : (borrowedLetters.all fun letter =>
      (capital letter).head?.any isIdentifierStart) = true := by decide +kernel
  exact List.all_eq_true.1 every character member

theorem all_capital_of_mem_borrowedLetters {character : Char}
    (member : character ∈ borrowedLetters) :
    (capital character).all isIdentifierPart = true := by
  have every : (borrowedLetters.all fun letter =>
      (capital letter).all isIdentifierPart) = true := by decide +kernel
  exact List.all_eq_true.1 every character member

theorem toNat_lt_of_isIdentifierPart {character : Char}
    (isPart : isIdentifierPart character = true) : character.toNat < 0x80 := by
  simp only [isIdentifierPart, isIdentifierStart, Bool.or_eq_true, Bool.and_eq_true,
    decide_eq_true_eq, beq_iff_eq, Char.le_def, UInt32.le_iff_toNat_le] at isPart
  rw [Char.toNat]
  rcases isPart with (⟨_, below⟩ | rfl) | ⟨_, below⟩
  · exact Nat.lt_of_le_of_lt below (by decide)
  · decide
  · exact Nat.lt_of_le_of_lt below (by decide)

theorem all_isIdentifierPart_capital_of_beyond {character : Char} (beyond : ¬ character.toNat < 0x80) :
    (capital character).all isIdentifierPart = true ↔ character ∈ borrowedLetters := by
  constructor
  · intro areParts
    rcases capital_cases character with
      ⟨ascii, _⟩ | ⟨run, isRun, isCode, isCapital⟩ | ⟨group, isEntry, isGroup⟩ | alone
    · exact absurd ascii beyond
    · have checked := List.all_eq_true.1 (List.all_eq_true.1 caseRuns_checked run isRun) _ isCode
      rw [isCapital, List.all_cons, List.all_nil, Bool.and_true] at areParts
      rwa [areParts, Char.ofNat_toNat, Bool.not_true, Bool.false_or, List.contains_iff_mem] at checked
    · have checked := List.all_eq_true.1 capitalGroups_checked _ isEntry
      rw [isGroup] at areParts
      rwa [areParts, Char.ofNat_toNat, Bool.not_true, Bool.false_or, List.contains_iff_mem] at checked
    · rw [alone, List.all_cons, List.all_nil, Bool.and_true] at areParts
      exact absurd (toNat_lt_of_isIdentifierPart areParts) beyond
  · exact all_capital_of_mem_borrowedLetters

theorem toNat_lt_of_isAlpha {character : Char} (isAlpha : character.isAlpha = true) :
    character.toNat < 0x80 := by
  delta Char.isAlpha Char.isUpper Char.isLower at isAlpha
  simp only [Bool.or_eq_true, Bool.and_eq_true, decide_eq_true_eq, UInt32.le_iff_toNat_le,
    ge_iff_le] at isAlpha
  rw [Char.toNat]
  rcases isAlpha with ⟨_, below⟩ | ⟨_, below⟩
  · exact Nat.lt_of_le_of_lt below (by decide)
  · exact Nat.lt_of_le_of_lt below (by decide)

theorem isNameStart_iff_of_beyond {further : List Char} {character : Char}
    (beyond : ¬ character.toNat < 0x80) :
    IsNameStart further character ↔ character ∈ further := by
  constructor
  · rintro (isAlpha | rfl | isFurther)
    · exact absurd (toNat_lt_of_isAlpha isAlpha) beyond
    · exact absurd (by decide) beyond
    · exact isFurther
  · exact fun isFurther => Or.inr (Or.inr isFurther)

theorem isNamePart_iff_of_beyond {further : List Char} {character : Char}
    (beyond : ¬ character.toNat < 0x80) :
    IsNamePart further character ↔ character ∈ further := by
  have noDigit : ¬ character.isDigit = true := by
    intro isDigit
    have isPart : isIdentifierPart character = true := by
      rw [isIdentifierPart, Bool.or_eq_true]
      exact Or.inr isDigit
    exact beyond (toNat_lt_of_isIdentifierPart isPart)
  rw [IsNamePart, isNameStart_iff_of_beyond beyond]
  exact or_iff_left noDigit

/-! ## Capitals -/

theorem isNamePart_iff (character : Char) :
    IsNamePart borrowedLetters character ↔ (capital character).all isIdentifierPart = true := by
  by_cases ascii : character.toNat < 0x80
  · rw [capital_of_ascii ascii, ← isIdentifierPart_toUpper_iff ascii]
    simp
  · rw [isNamePart_iff_of_beyond ascii, all_isIdentifierPart_capital_of_beyond ascii]

theorem isNameStart_iff (character : Char) :
    IsNameStart borrowedLetters character ↔
      (capital character).head?.any isIdentifierStart = true ∧
        (capital character).all isIdentifierPart = true := by
  by_cases ascii : character.toNat < 0x80
  · rw [capital_of_ascii ascii, ← isIdentifierStart_toUpper_iff ascii]
    simp +contextual [isIdentifierPart]
  · rw [isNameStart_iff_of_beyond ascii, all_isIdentifierPart_capital_of_beyond ascii]
    refine ⟨fun borrowed => ⟨?_, borrowed⟩, And.right⟩
    exact head_capital_of_mem_borrowedLetters borrowed

/-! ## Texts -/

/-- What may begin an identifier may also stand in it, so the first character is no exception. -/
theorem isIdentifier_iff (text : String) :
    isIdentifier text = true ↔ text.toList.head?.any isIdentifierStart = true ∧
      text.toList.all isIdentifierPart = true := by
  rw [isIdentifier]
  cases text.toList with
  | nil => simp
  | cons first rest => simp +contextual [isIdentifierPart]

theorem head?_capitals_cons (first : Char) (rest : List Char) :
    (capitals (first :: rest)).head? = (capital first).head? := by
  rw [capitals, List.flatMap_cons]
  cases hasCapital : capital first with
  | nil => exact absurd hasCapital (capital_ne_nil first)
  | cons _ _ => rfl

/-- The capitals of a text are an identifier exactly when it is a name of letters of ASCII and the
ten letters. -/
theorem isIdentifier_upperCase_iff (text : String) :
    isIdentifier (upperCase text) = true ↔ IsName borrowedLetters text.toList := by
  rw [isIdentifier_iff, toList_upperCase]
  cases text.toList with
  | nil => simp [IsName, capitals]
  | cons first rest =>
      -- every character but the first has to be a part of a name, so has every capital of it
      have continues : (rest.flatMap capital).all isIdentifierPart = true ↔
          ∀ character ∈ rest, IsNamePart borrowedLetters character := by
        rw [List.all_flatMap, List.all_eq_true]
        simp only [isNamePart_iff]
      rw [head?_capitals_cons, capitals, List.flatMap_cons, List.all_append, Bool.and_eq_true,
        ← and_assoc, ← isNameStart_iff, continues]
      constructor
      · rintro ⟨startsName, areParts⟩
        exact ⟨first, rest, rfl, startsName, areParts⟩
      · rintro ⟨_, _, same, startsName, areParts⟩
        cases same
        exact ⟨startsName, areParts⟩

end Intel8085.Assembly
