import Intel8085.Text.Integer
import Mathlib.Data.List.Forall2
import Mathlib.Data.Nat.Digits.Defs

/-!
# Digits and the numbers they write

A digit below sixteen is written as a character, and one that is a letter also as its capital
(`IsHexDigit`).  The digits of a number in base ten or sixteen, behind any count of zeros, are read
as the number (`natural?_of_isPositional`), in base sixteen also behind a mark (`natural?_of_mark`).
-/

set_option autoImplicit false

namespace Intel8085.Text

/-- The character stands for a number below sixteen: it is the digit of the number or its
capital. -/
inductive IsHexDigit : Char → Nat → Prop where
  | small {digit : Nat} (below : digit < 16) : IsHexDigit digit.digitChar digit
  | capital {digit : Nat} (below : digit < 16) : IsHexDigit digit.digitChar.toUpper digit

/-- The digits of base sixteen and the signs for that base. -/
def isNumberSign (character : Char) : Bool :=
  "0123456789ABCDEFabcdefxXhH$".toList.contains character

/-- The text is the digits of the number in the base behind any count of zeros; letters among them
may be small or capital. -/
def IsPositional (base : Base) (text : List Char) (number : Nat) : Prop :=
  ∃ zeros : Nat, List.Forall₂ (fun character digit => character = digit ∨ character = digit.toUpper)
    text (List.replicate zeros '0' ++ Nat.toDigits base.size number)

/-! ## Digits -/

/-- There are sixteen digits of each case, so what is decided of them all holds of a digit. -/
@[elab_as_elim]
theorem IsHexDigit.of_all {property : Char → Nat → Prop} {character : Char} {digit : Nat}
    (isDigit : IsHexDigit character digit)
    (all : ∀ digit : Fin 16,
      property digit.val.digitChar digit.val ∧ property digit.val.digitChar.toUpper digit.val) :
    property character digit := by
  cases isDigit with
  | small below => exact (all ⟨digit, below⟩).1
  | capital below => exact (all ⟨digit, below⟩).2

section Digit

variable {character : Char} {digit : Nat} (isDigit : IsHexDigit character digit)
include isDigit

theorem IsHexDigit.digit? : Base.sixteen.digit? character = some digit :=
  isDigit.of_all (by decide +kernel)

theorem IsHexDigit.decimalDigit? (small : digit < 10) : decimalDigit? character = some digit := by
  revert small
  exact isDigit.of_all (by decide +kernel)

/-- No digit is the letter of a mark, a dollar sign, or the line between two digits. -/
theorem IsHexDigit.ne :
    character ≠ 'x' ∧ character ≠ 'X' ∧ character ≠ '$' ∧ character ≠ '_' :=
  isDigit.of_all (by decide)

theorem IsHexDigit.isNumberSign : isNumberSign character = true :=
  isDigit.of_all (by decide)

end Digit

theorem isNumberSign_facts {character : Char} (isSign : isNumberSign character = true) :
    isBlank character = false ∧ isIntegerBlank character = false ∧ character ≠ ':' := by
  have all : ("0123456789ABCDEFabcdefxXhH$".toList.all fun sign =>
      !isBlank sign && !isIntegerBlank sign && sign != ':') = true := by decide
  have facts := List.all_eq_true.1 all character (List.contains_iff_mem.1 isSign)
  simpa [and_assoc] using facts

theorem Base.one_lt_size (base : Base) : 1 < base.size := by
  cases base <;> decide

theorem Base.size_le (base : Base) : base.size ≤ 16 := by
  cases base <;> decide

theorem Base.number_eq_ofDigits (base : Base) (digits : List Nat) :
    base.number digits = Nat.ofDigits base.size digits.reverse := by
  rw [Nat.ofDigits_eq_foldr, List.foldr_reverse, Base.number]
  congr 1
  funext value digit
  rw [Nat.add_comm, Nat.mul_comm, Nat.cast_id]

theorem Base.number_zeros_append (base : Base) (zeros : Nat) (digits : List Nat) :
    base.number (List.replicate zeros 0 ++ digits) = base.number digits := by
  induction zeros with
  | zero => rfl
  | succ zeros inductionHypothesis =>
      rw [List.replicate_succ, List.cons_append, Base.number, List.foldl_cons, Nat.zero_mul]
      exact inductionHypothesis

/-- A number is written in digits below the base, and it is their value. -/
theorem exists_digits_of_number {base : Nat} (atLeastTwo : 1 < base) (number : Nat) :
    ∃ digits : List Nat, Nat.toDigits base number = digits.map Nat.digitChar ∧
      (∀ digit ∈ digits, digit < base) ∧ Nat.ofDigits base digits.reverse = number := by
  induction number using Nat.strongRecOn with
  | ind number inductionHypothesis =>
      by_cases single : number < base
      · refine ⟨[number], Nat.toDigits_of_lt_base single, ?_, Nat.ofDigits_singleton⟩
        intro digit member
        rwa [List.mem_singleton.1 member]
      · have smaller : number / base < number := Nat.div_lt_self (by omega) atLeastTwo
        have last : number % base < base := Nat.mod_lt number (by omega)
        obtain ⟨digits, written, small, sum⟩ := inductionHypothesis _ smaller
        refine ⟨digits ++ [number % base], ?_, ?_, ?_⟩
        · rw [Nat.toDigits_of_base_le atLeastTwo (Nat.le_of_not_lt single), written,
            List.map_append, List.map_singleton]
        · intro digit member
          rcases List.mem_append.1 member with inFront | isLast
          · exact small digit inFront
          · rwa [List.mem_singleton.1 isLast]
        · rw [List.reverse_append, List.reverse_singleton, List.singleton_append,
            Nat.ofDigits_cons, sum]
          exact Nat.mod_add_div number base

/-- The text has digits below the base, and what they write is the number. -/
theorem IsPositional.exists_digits {base : Base} {text : List Char} {number : Nat}
    (positional : IsPositional base text number) :
    ∃ digits, List.Forall₂ (fun character digit => digit < base.size ∧ IsHexDigit character digit)
      text digits ∧ base.number digits = number := by
  obtain ⟨zeros, spelled⟩ := positional
  obtain ⟨digits, written, small, sum⟩ := exists_digits_of_number base.one_lt_size number
  have value : base.number (List.replicate zeros 0 ++ digits) = number := by
    rw [base.number_zeros_append, base.number_eq_ofDigits, sum]
  refine ⟨List.replicate zeros 0 ++ digits, ?_, value⟩
  have below : ∀ digit ∈ List.replicate zeros 0 ++ digits, digit < base.size := by
    intro digit member
    rcases List.mem_append.1 member with isZero | inDigits
    · rw [List.eq_of_mem_replicate isZero]
      exact Nat.lt_of_succ_lt base.one_lt_size
    · exact small digit inDigits
  have characters : List.replicate zeros '0' ++ Nat.toDigits base.size number =
      (List.replicate zeros 0 ++ digits).map Nat.digitChar := by
    rw [written, List.map_append, List.map_replicate]
    rfl
  rw [characters, List.forall₂_map_right_iff] at spelled
  have both := (List.forall₂_and_left _ text).2 ⟨below, spelled.flip⟩
  apply List.Forall₂.flip
  refine both.imp fun digit character ⟨isBelow, isDigit⟩ => ⟨isBelow, ?_⟩
  have belowSixteen : digit < 16 := Nat.lt_of_lt_of_le isBelow base.size_le
  rcases isDigit with rfl | rfl
  · exact .small belowSixteen
  · exact .capital belowSixteen

theorem IsPositional.exists_isHexDigit {base : Base} {text : List Char} {number : Nat}
    (positional : IsPositional base text number) {character : Char} (member : character ∈ text) :
    ∃ digit, IsHexDigit character digit := by
  obtain ⟨digits, spelled, _⟩ := positional.exists_digits
  have each := spelled.imp fun character digit ⟨small, isDigit⟩ =>
    (⟨⟨digit, isDigit⟩, small⟩ : (∃ digit, IsHexDigit character digit) ∧ digit < base.size)
  exact ((List.forall₂_and_left _ _).1 each).1 character member

theorem IsPositional.ne_nil {base : Base} {text : List Char} {number : Nat}
    (positional : IsPositional base text number) : text ≠ [] := by
  rintro rfl
  obtain ⟨zeros, spelled⟩ := positional
  have nothing := List.forall₂_nil_left_iff.1 spelled
  exact Nat.toDigits_ne_nil (List.append_eq_nil_iff.1 nothing).2

/-! ## Reading -/

theorem Base.digit?_of_isHexDigit {base : Base} {character : Char} {digit : Nat}
    (small : digit < base.size) (isDigit : IsHexDigit character digit) :
    base.digit? character = some digit := by
  cases base with
  | ten => exact isDigit.decimalDigit? small
  | sixteen => exact isDigit.digit?

theorem digitsOf?_of_forall₂ {base : Base} {text : List Char} {digits : List Nat}
    (spelled : List.Forall₂ (fun character digit => base.digit? character = some digit) text digits)
    (some : text ≠ []) : digitsOf? base text = .some digits := by
  have noDigit : base.digit? '_' = none := by cases base <;> decide +kernel
  induction spelled with
  | nil => exact absurd rfl some
  | cons isDigit others inductionHypothesis =>
      cases others with
      | nil => simp [digitsOf?, isDigit]
      | cons isNext later =>
          have rest := inductionHypothesis (List.cons_ne_nil _ _)
          rw [digitsOf?, isDigit, rest]
          · rfl
          · exact fun impossible => absurd impossible (List.cons_ne_nil _ _)
          · rintro others same
            rw [(List.cons.inj same).1, noDigit] at isNext
            cases isNext

theorem IsPositional.digitsOf? {base : Base} {text : List Char} {number : Nat}
    (positional : IsPositional base text number) :
    ∃ digits, digitsOf? base text = some digits ∧ digits.length = text.length ∧
      base.number digits = number := by
  obtain ⟨digits, spelled, value⟩ := positional.exists_digits
  refine ⟨digits, ?_, spelled.length_eq.symm, value⟩
  exact digitsOf?_of_forall₂
    (spelled.imp fun _ _ ⟨small, isDigit⟩ => Base.digit?_of_isHexDigit small isDigit)
    positional.ne_nil

theorem IsPositional.behindMark {base : Base} {text : List Char} {number : Nat}
    (positional : IsPositional base text number) : behindMark text = text := by
  match text with
  | [] => rfl
  | [_] => rfl
  | zero :: letter :: rest =>
      have member : letter ∈ zero :: letter :: rest := List.mem_cons_of_mem zero List.mem_cons_self
      obtain ⟨digit, isDigit⟩ := positional.exists_isHexDigit member
      obtain ⟨notSmall, notCapital, _⟩ := isDigit.ne
      simp [Text.behindMark, notSmall, notCapital]

theorem natural?_of_isPositional {base : Base} {text : List Char} {number : Nat}
    (positional : IsPositional base text number)
    (short : base = .ten → text.length ≤ longestDecimal) : natural? base text = some number := by
  obtain ⟨digits, read, length, value⟩ := positional.digitsOf?
  have notLong : ¬ (base = .ten ∧ longestDecimal < digits.length) := by
    rintro ⟨isTen, long⟩
    have := short isTen
    omega
  rw [natural?, positional.behindMark, ite_self, read]
  simp [notLong, value]

theorem natural?_of_mark {letter : Char} (isMark : letter = 'x' ∨ letter = 'X') {text : List Char}
    {number : Nat} (positional : IsPositional .sixteen text number) :
    natural? .sixteen ('0' :: letter :: text) = some number := by
  obtain ⟨digits, read, _, value⟩ := positional.digitsOf?
  have behind : Text.behindMark ('0' :: letter :: text) = text := by
    have isZero : decimalDigit? '0' = some 0 := by decide +kernel
    cases text with
    | nil => exact absurd rfl positional.ne_nil
    | cons first rest =>
        obtain ⟨digit, isDigit⟩ := positional.exists_isHexDigit List.mem_cons_self
        obtain ⟨_, _, _, notJoint⟩ := isDigit.ne
        rcases isMark with rfl | rfl
        all_goals simp [Text.behindMark, isZero, notJoint]
  rw [natural?, if_pos rfl, behind, read]
  simp [value]

theorem dropWhile_of_plain {text : List Char}
    (plain : ∀ character ∈ text, isIntegerBlank character = false) :
    text.dropWhile isIntegerBlank = text := by
  cases text with
  | nil => rfl
  | cons first rest =>
      rw [List.dropWhile_cons_of_neg]
      simp [plain first List.mem_cons_self]

theorem trimInteger_of_plain {text : List Char}
    (plain : ∀ character ∈ text, isIntegerBlank character = false) : trimInteger text = text := by
  have plainReversed : ∀ character ∈ text.reverse, isIntegerBlank character = false :=
    fun character member => plain character (List.mem_reverse.1 member)
  rw [trimInteger, dropWhile_of_plain plain, dropWhile_of_plain plainReversed,
    List.reverse_reverse]

theorem integer?_of_isNumberSign {base : Base} {text : List Char}
    (signs : ∀ character ∈ text, isNumberSign character = true) :
    integer? base text = (natural? base text).map Int.ofNat := by
  have plain : trimInteger text = text := by
    apply trimInteger_of_plain
    intro character member
    exact (isNumberSign_facts (signs character member)).2.1
  rw [integer?, plain]
  split
  · cases signs '-' List.mem_cons_self
  · cases signs '+' List.mem_cons_self
  · rfl

end Intel8085.Text
