import Intel8085.Proofs.Source.HexLiteral
import Intel8085.Proofs.Source.Numerals
import Intel8085.Proofs.Text.Digits

/-!
# The grammar of numbers

A number is spelled with digits of its base, of which the first is a decimal digit, and the letter
for its base behind them (`Spells`).  These are the numerals that the reader knows
(`spells_iff_isNumeral`), so it reads the spellings of a number as that number and nothing else
(`readLiteral_iff_spells`).  Every number has a spelling in each base: the positional digits, and in
base sixteen what `hexLiteral` writes.
-/

set_option autoImplicit false

namespace Intel8085.Source

open Intel8085.Text

/-- The digits of the four bases, each at the place of its value. -/
def digitSigns : List Char :=
  "0123456789ABCDEF".toList

/-- The text has digits below the base, of which the first is a decimal digit, and then the letter
for the base; and the number is the sum of the digits, each times the power of the base at its
place. -/
inductive Spells (radix : Radix) : List Char → Nat → Prop where
  | intro {first : Char} {rest : List Char} {digits : List Nat} (leading : first.isDigit = true)
      (spelled : List.Forall₂
        (fun character digit => digit < radix.size ∧ digitSigns[digit]? = some character)
        (first :: rest) digits) :
      Spells radix (first :: rest ++ radix.suffix) (Nat.ofDigits radix.size digits.reverse)

/-! ## Digits -/

theorem getElem?_digitSigns {digit : Nat} (small : digit < 16) :
    digitSigns[digit]? = some (hexDigit digit) := by
  have allDigits : ∀ digit : Fin 16, digitSigns[digit.val]? = some (hexDigit digit.val) := by decide
  exact allDigits ⟨digit, small⟩

theorem eq_hexDigit_of_hexDigitValue? {character : Char} {digit : Nat}
    (isDigit : hexDigitValue? character = some digit) :
    digit < 16 ∧ character = hexDigit digit := by
  simp only [hexDigitValue?, Bool.and_eq_true, decide_eq_true_eq] at isDigit
  rw [← Char.ofNat_toNat character, hexDigit]
  split at isDigit
  · obtain rfl := Option.some.inj isDigit
    rw [if_pos (by omega)]
    exact ⟨by omega, congrArg Char.ofNat (by omega)⟩
  · split at isDigit
    · obtain rfl := Option.some.inj isDigit
      rw [if_neg (by omega)]
      exact ⟨by omega, congrArg Char.ofNat (by omega)⟩
    · cases isDigit

theorem Radix.size_le (radix : Radix) : radix.size ≤ 16 := by
  cases radix <;> decide

theorem digit?_eq_some_iff {radix : Radix} {character : Char} {digit : Nat} :
    radix.digit? character = some digit ↔
      digit < radix.size ∧ digitSigns[digit]? = some character := by
  rw [Radix.digit?, Option.filter_eq_some_iff, decide_eq_true_eq]
  constructor
  · rintro ⟨isDigit, small⟩
    obtain ⟨below, rfl⟩ := eq_hexDigit_of_hexDigitValue? isDigit
    exact ⟨small, getElem?_digitSigns below⟩
  · rintro ⟨small, sign⟩
    have below : digit < 16 := Nat.lt_of_lt_of_le small radix.size_le
    rw [getElem?_digitSigns below] at sign
    cases sign
    exact ⟨hexDigitValue?_hexDigit below, small⟩

/-! ## Reading -/

theorem spells_iff_isNumeral {radix : Radix} {text : List Char} {value : Nat} :
    Spells radix text value ↔ IsNumeral radix text value := by
  constructor
  · rintro ⟨leading, spelled⟩
    exact .intro leading (spelled.imp fun _ _ => digit?_eq_some_iff.2)
  · rintro ⟨leading, spelled⟩
    rename_i body digits
    cases body with
    | nil => cases leading
    | cons first rest => exact .intro leading (spelled.imp fun _ _ => digit?_eq_some_iff.1)

/-- Texts of moderate length are read as numbers exactly when they spell them. -/
theorem readLiteral_iff_spells {text : List Char} (short : text.length ≤ longestDecimal)
    {value : Nat} :
    readLiteral text = .number value ↔ ∃ radix, Spells radix text value := by
  simp only [spells_iff_isNumeral, readLiteral_eq_number_iff, short, implies_true, and_true]

theorem readLiteral_of_not_spells {text : List Char}
    (misspelled : ∀ radix value, ¬ Spells radix text value) : readLiteral text = .malformed := by
  cases read : readLiteral text with
  | malformed => rfl
  | number value =>
      obtain ⟨radix, isNumeral, _⟩ := readLiteral_eq_number_iff.1 read
      exact absurd (spells_iff_isNumeral.2 isNumeral) (misspelled radix value)
  | tooLong =>
      obtain ⟨value, isNumeral, _⟩ := isNumeral_of_tooLong read
      exact absurd (spells_iff_isNumeral.2 isNumeral) (misspelled .decimal value)

/-! ## Positional digits -/

theorem digit?_digitChar {radix : Radix} (noLetters : radix ≠ .hexadecimal) {digit : Nat}
    (small : digit < radix.size) : radix.digit? digit.digitChar = some digit := by
  have allDigits : ∀ digit : Fin 10, hexDigitValue? digit.val.digitChar = some digit.val := by decide
  have below : digit < 10 := by
    cases radix with
    | hexadecimal => exact absurd rfl noLetters
    | binary => exact Nat.lt_trans small (by decide)
    | octal => exact Nat.lt_trans small (by decide)
    | decimal => exact small
  rw [Radix.digit?, allDigits ⟨digit, below⟩]
  exact Option.filter_some_pos (decide_eq_true small)

theorem isDigit_of_digit? {radix : Radix} (noLetters : radix ≠ .hexadecimal) {character : Char}
    {digit : Nat} (isDigit : radix.digit? character = some digit) : character.isDigit = true := by
  have allDigits : ∀ digit : Fin 10, (hexDigit digit.val).isDigit = true := by decide
  obtain ⟨value, small⟩ := Option.filter_eq_some_iff.1 isDigit
  obtain ⟨_, rfl⟩ := eq_hexDigit_of_hexDigitValue? value
  rw [decide_eq_true_eq] at small
  cases radix with
  | hexadecimal => exact absurd rfl noLetters
  | binary => exact allDigits ⟨digit, Nat.lt_trans small (by decide)⟩
  | octal => exact allDigits ⟨digit, Nat.lt_trans small (by decide)⟩
  | decimal => exact allDigits ⟨digit, small⟩

theorem exists_digits_of_toDigits {radix : Radix} (noLetters : radix ≠ .hexadecimal)
    (value : Nat) :
    ∃ digits, List.Forall₂ (fun character digit => radix.digit? character = some digit)
      (Nat.toDigits radix.size value) digits ∧ Nat.ofDigits radix.size digits.reverse = value := by
  have base : 1 < radix.size := by cases radix <;> decide
  obtain ⟨digits, written, small, sum⟩ := exists_digits_of_number base value
  refine ⟨digits, ?_, sum⟩
  rw [written, List.forall₂_map_left_iff, List.forall₂_same]
  exact fun digit member => digit?_digitChar noLetters (small digit member)

/-- The positional digits of a number spell it, with any count of zeros in front. -/
theorem spells_toDigits {radix : Radix} (noLetters : radix ≠ .hexadecimal) (zeros value : Nat) :
    Spells radix
      (List.replicate zeros '0' ++ (Nat.toDigits radix.size value ++ radix.suffix)) value := by
  obtain ⟨digits, spelled, sum⟩ := exists_digits_of_toDigits noLetters value
  have leading : startsWithDigit (Nat.toDigits radix.size value) = true := by
    cases written : Nat.toDigits radix.size value with
    | nil => exact absurd written Nat.toDigits_ne_nil
    | cons first rest =>
        rw [written, List.forall₂_cons_left_iff] at spelled
        obtain ⟨digit, _, isDigit, _⟩ := spelled
        exact isDigit_of_digit? noLetters isDigit
  have isNumeral := IsNumeral.intro leading spelled
  rw [sum] at isNumeral
  exact spells_iff_isNumeral.2 (isNumeral.padded zeros)

end Intel8085.Source
