import Intel8085.Proofs.Results
import Intel8085.Source.Literal
import Mathlib.Data.Nat.Digits.Defs

/-!
# Numerals

The numbers that source text may have are the numerals of the four bases, and what is read is their
positional value (`readLiteral_eq_number_iff`).  A text is a numeral in one way only: its last
character tells the base, since no decimal digit is a letter.
-/

set_option autoImplicit false

namespace Intel8085.Source

open Intel8085.Text

/-- The letter behind the digits of a number in a base. -/
def Radix.suffix : Radix → List Char
  | .binary => ['B']
  | .octal => ['O']
  | .decimal => []
  | .hexadecimal => ['H']

/-- The text has digits in the base, of which the first is a decimal digit, and then the letter for
the base; and the number is the sum of the digits, each times the power of the base at its place. -/
inductive IsNumeral (radix : Radix) : List Char → Nat → Prop where
  | intro {body : List Char} {digits : List Nat} (leading : startsWithDigit body = true)
      (spelled : List.Forall₂ (fun character digit => radix.digit? character = some digit)
        body digits) :
      IsNumeral radix (body ++ radix.suffix) (Nat.ofDigits radix.size digits.reverse)

theorem IsNumeral.cons_zero {radix : Radix} {text : List Char} {value : Nat}
    (isNumeral : IsNumeral radix text value) : IsNumeral radix ('0' :: text) value := by
  cases isNumeral with
  | @intro body digits _ spelled =>
      have isZero : radix.digit? '0' = some 0 := by
        cases radix <;> decide
      have sameValue : Nat.ofDigits radix.size (0 :: digits).reverse =
          Nat.ofDigits radix.size digits.reverse := by
        rw [List.reverse_cons, Nat.ofDigits_append, Nat.ofDigits_singleton, Nat.mul_zero,
          Nat.add_zero]
      have wider : startsWithDigit ('0' :: body) = true := rfl
      rw [← sameValue]
      exact .intro wider (.cons isZero spelled)

/-- Zeros in front of a numeral keep its number. -/
theorem IsNumeral.padded {radix : Radix} {text : List Char} {value : Nat}
    (isNumeral : IsNumeral radix text value) (count : Nat) :
    IsNumeral radix (List.replicate count '0' ++ text) value := by
  induction count with
  | zero => exact isNumeral
  | succ count inductionHypothesis => exact inductionHypothesis.cons_zero

theorem Radix.number_eq_ofDigits (radix : Radix) (digits : List Nat) :
    radix.number digits = Nat.ofDigits radix.size digits.reverse := by
  rw [Nat.ofDigits_eq_foldr, List.foldr_reverse, Radix.number]
  congr 1
  funext value digit
  rw [Nat.add_comm, Nat.mul_comm, Nat.cast_id]

/-! ## Bases -/

theorem suffix_of_ofSuffix? {character : Char} {radix : Radix}
    (stands : Radix.ofSuffix? character = some radix) : radix.suffix = [character] := by
  unfold Radix.ofSuffix? at stands
  split at stands
  · cases stands
    rfl
  · cases stands
    rfl
  · cases stands
    rfl
  · cases stands

theorem ofSuffix?_of_decimal {character : Char} {digit : Nat}
    (isDigit : Radix.decimal.digit? character = some digit) :
    Radix.ofSuffix? character = none := by
  unfold Radix.ofSuffix?
  split
  · cases isDigit
  · cases isDigit
  · cases isDigit
  · rfl

theorem splitRadix_append (text : List Char) :
    (splitRadix text).2 ++ (splitRadix text).1.suffix = text := by
  unfold splitRadix
  split
  · rename_i radix found
    obtain ⟨last, isLast, stands⟩ := Option.bind_eq_some_iff.1 found
    rw [suffix_of_ofSuffix? stands]
    exact List.dropLast_append_getLast? last isLast
  · exact List.append_nil text

theorem splitRadix_concat {character : Char} {radix : Radix}
    (stands : Radix.ofSuffix? character = some radix) (body : List Char) :
    splitRadix (body ++ [character]) = (radix, body) := by
  rw [splitRadix, List.getLast?_concat, Option.bind_some, stands, List.dropLast_concat]

theorem splitRadix_of_spelled {radix : Radix} {body : List Char} {digits : List Nat}
    (spelled : List.Forall₂ (fun character digit => radix.digit? character = some digit)
      body digits) :
    splitRadix (body ++ radix.suffix) = (radix, body) := by
  cases radix with
  | binary => exact splitRadix_concat rfl body
  | octal => exact splitRadix_concat rfl body
  | hexadecimal => exact splitRadix_concat rfl body
  | decimal =>
      have noSuffix : body.getLast?.bind Radix.ofSuffix? = none := by
        rw [Option.bind_eq_none_iff]
        intro last isLast
        obtain ⟨digit, _, isDigit⟩ :=
          exists_of_mem_right spelled.flip (List.mem_of_getLast? isLast)
        exact ofSuffix?_of_decimal isDigit
      rw [splitRadix, Radix.suffix, List.append_nil, noSuffix]

/-! ## Reading -/

theorem isNumeral_of_readLiteral {text : List Char} {value : Nat}
    (read : readLiteral text = .number value) :
    ∃ radix, IsNumeral radix text value ∧ (radix = .decimal → text.length ≤ longestDecimal) := by
  obtain ⟨radix, body, split⟩ : ∃ radix body, splitRadix text = (radix, body) := ⟨_, _, rfl⟩
  have whole := splitRadix_append text
  simp only [readLiteral, split] at read whole
  split at read
  · rename_i leading
    split at read
    · cases read
    · rename_i digits spelled
      split at read
      · cases read
      · rename_i short
        cases read
        rw [mapM_eq_some_iff] at spelled
        refine ⟨radix, ?_, ?_⟩
        · rw [← whole, radix.number_eq_ofDigits]
          exact .intro leading spelled
        · rintro rfl
          rw [← whole, Radix.suffix, List.append_nil, spelled.length_eq]
          exact Nat.le_of_not_lt fun long => short ⟨rfl, long⟩
  · cases read

/-- Only a decimal numeral can have too many digits to be read. -/
theorem isNumeral_of_tooLong {text : List Char} (read : readLiteral text = .tooLong) :
    ∃ value, IsNumeral .decimal text value ∧ longestDecimal < text.length := by
  obtain ⟨radix, body, split⟩ : ∃ radix body, splitRadix text = (radix, body) := ⟨_, _, rfl⟩
  have whole := splitRadix_append text
  simp only [readLiteral, split] at read whole
  split at read
  · rename_i leading
    split at read
    · cases read
    · rename_i digits spelled
      split at read
      · rename_i long
        obtain ⟨rfl, long⟩ := long
        rw [mapM_eq_some_iff] at spelled
        rw [Radix.suffix, List.append_nil] at whole
        subst whole
        have isNumeral := IsNumeral.intro leading spelled
        rw [Radix.suffix, List.append_nil] at isNumeral
        rw [← spelled.length_eq] at long
        exact ⟨_, isNumeral, long⟩
      · cases read
  · cases read

theorem readLiteral_of_isNumeral {radix : Radix} {text : List Char} {value : Nat}
    (isNumeral : IsNumeral radix text value)
    (short : radix = .decimal → text.length ≤ longestDecimal) :
    readLiteral text = .number value := by
  cases isNumeral with
  | @intro body digits leading spelled =>
      have notTooLong : ¬ (radix = .decimal ∧ longestDecimal < digits.length) := by
        rintro ⟨rfl, long⟩
        have bound := short rfl
        rw [Radix.suffix, List.append_nil, spelled.length_eq] at bound
        omega
      simp only [readLiteral, splitRadix_of_spelled spelled, leading, if_true,
        mapM_eq_some_iff.2 spelled, if_neg notTooLong, radix.number_eq_ofDigits]

theorem readLiteral_of_long {text : List Char} {value : Nat}
    (isNumeral : IsNumeral .decimal text value) (long : longestDecimal < text.length) :
    readLiteral text = .tooLong := by
  cases isNumeral with
  | @intro body digits leading spelled =>
      rw [Radix.suffix, List.append_nil, spelled.length_eq] at long
      simp only [readLiteral, splitRadix_of_spelled spelled, leading, if_true,
        mapM_eq_some_iff.2 spelled, true_and, if_pos long]

/-- What is read as a number is a numeral of it, and every numeral is read but for decimal ones with
too many digits. -/
theorem readLiteral_eq_number_iff {text : List Char} {value : Nat} :
    readLiteral text = .number value ↔
      ∃ radix, IsNumeral radix text value ∧
        (radix = .decimal → text.length ≤ longestDecimal) :=
  ⟨isNumeral_of_readLiteral, fun ⟨_, isNumeral, short⟩ => readLiteral_of_isNumeral isNumeral short⟩

end Intel8085.Source
