import Intel8085.Proofs.Source.Spelling
import Intel8085.Source.Literal

/-!
# Hexadecimal literals

The literal that disassembly writes for a number, with any count of digits, is read back as the
number (`readLiteral_hexLiteral`).  It is a plain token and begins with a decimal digit, so it is
neither an identifier nor the name of a register.
-/

set_option autoImplicit false

namespace Intel8085.Source

open Intel8085.Text Intel8085.Assembly

/-- The digits of a literal before the letter for its base. -/
def literalBody (digits number : Nat) : List Char :=
  let text := hexNumber digits number
  if text.head?.any (fun first => 'A' ≤ first && first ≤ 'F') then '0' :: text else text

/-! ## Digits -/

theorem isPlain_hexDigit {number : Nat} (small : number < 16) : isPlain (hexDigit number) = true := by
  have allDigits : ∀ digit : Fin 16, isPlain (hexDigit digit) = true := by decide
  exact allDigits ⟨number, small⟩

theorem digit?_hexDigit {number : Nat} (small : number < 16) :
    Radix.hexadecimal.digit? (hexDigit number) = some number := by
  rw [Radix.digit?, hexDigitValue?_hexDigit small]
  exact Option.filter_some_pos (decide_eq_true small)

theorem mem_hexDigits {width number : Nat} {character : Char}
    (member : character ∈ hexDigits width number) :
    ∃ digit < 16, character = hexDigit digit := by
  induction width generalizing number with
  | zero => exact absurd member (by simp [hexDigits])
  | succ width inductionHypothesis =>
      rw [hexDigits, List.mem_append, List.mem_singleton] at member
      rcases member with inFront | isLast
      · exact inductionHypothesis inFront
      · exact ⟨number % 16, Nat.mod_lt number (by decide), isLast⟩

/-- The last `width` digits of a number stand for the number modulo the power of sixteen. -/
theorem mapM_digit?_hexDigits (width number : Nat) :
    ∃ digits, (hexDigits width number).mapM Radix.hexadecimal.digit? = some digits ∧
      Radix.hexadecimal.number digits = number % 16 ^ width := by
  induction width generalizing number with
  | zero => exact ⟨[], rfl, by simp [Radix.number, Nat.mod_one]⟩
  | succ width inductionHypothesis =>
      obtain ⟨digits, read, value⟩ := inductionHypothesis (number / 16)
      have small : number % 16 < 16 := Nat.mod_lt number (by decide)
      refine ⟨digits ++ [number % 16], ?_, ?_⟩
      · rw [hexDigits, List.mapM_append, read]
        simp [digit?_hexDigit small]
      · rw [Radix.number, List.foldl_append]
        change Radix.hexadecimal.number digits * 16 + number % 16 = number % 16 ^ (width + 1)
        rw [value, Nat.pow_succ', Nat.mod_mul]
        omega

theorem hexNumber_ne_nil (digits number : Nat) : hexNumber digits number ≠ [] := by
  intro empty
  have length := length_hexDigits (max digits (hexLength number)) number
  rw [hexNumber] at empty
  rw [empty, List.length_nil, hexLength] at length
  omega

/-! ## Reading -/

theorem hexLiteral_eq (digits number : Nat) :
    hexLiteral digits number = literalBody digits number ++ ['H'] := by
  have shown : hexInteger digits (number : Int) = hexNumber digits number := rfl
  cases written : hexNumber digits number with
  | nil => exact absurd written (hexNumber_ne_nil digits number)
  | cons first rest =>
      simp only [hexLiteral, literalBody, shown, written, List.cons_append, List.head?_cons,
        Option.any_some]
      split <;> rfl

theorem isPlain_of_mem_literalBody {digits number : Nat} {character : Char}
    (member : character ∈ literalBody digits number) : isPlain character = true := by
  have digitsPlain : ∀ other ∈ hexNumber digits number, isPlain other = true := by
    intro other isDigit
    obtain ⟨digit, small, rfl⟩ := mem_hexDigits isDigit
    exact isPlain_hexDigit small
  simp only [literalBody] at member
  split at member
  · rcases List.mem_cons.1 member with rfl | inDigits
    · decide
    · exact digitsPlain character inDigits
  · exact digitsPlain character member

theorem startsWithDigit_literalBody (digits number : Nat) :
    startsWithDigit (literalBody digits number) = true := by
  cases written : hexNumber digits number with
  | nil => exact absurd written (hexNumber_ne_nil digits number)
  | cons first rest =>
      have isDigit : first ∈ hexDigits (max digits (hexLength number)) number := by
        rw [← hexNumber, written]
        exact List.mem_cons_self
      obtain ⟨digit, small, rfl⟩ := mem_hexDigits isDigit
      have eitherKind : ∀ value : Fin 16, ('A' ≤ hexDigit value && hexDigit value ≤ 'F') = true ∨
          ('0' ≤ hexDigit value && hexDigit value ≤ '9') = true := by decide
      simp only [literalBody, written, List.head?_cons, Option.any_some]
      rcases eitherKind ⟨digit, small⟩ with letter | numeral
      · rw [if_pos letter]
        rfl
      · split
        · rfl
        · exact numeral

theorem mapM_digit?_literalBody (digits number : Nat) :
    ∃ values, (literalBody digits number).mapM Radix.hexadecimal.digit? = some values ∧
      Radix.hexadecimal.number values = number := by
  have bound : number < 16 ^ max digits (hexLength number) :=
    Nat.lt_of_lt_of_le (lt_sixteen_pow_hexLength number)
      (Nat.pow_le_pow_right (by decide) (Nat.le_max_right digits (hexLength number)))
  obtain ⟨values, read, value⟩ := mapM_digit?_hexDigits (max digits (hexLength number)) number
  rw [Nat.mod_eq_of_lt bound] at value
  rw [← hexNumber] at read
  have zero : Radix.hexadecimal.digit? '0' = some 0 := by decide
  simp only [literalBody]
  split
  · refine ⟨0 :: values, ?_, value⟩
    rw [List.mapM_cons, zero, read]
    rfl
  · exact ⟨values, read, value⟩

theorem readLiteral_hexLiteral (digits number : Nat) :
    readLiteral (hexLiteral digits number) = .number number := by
  obtain ⟨values, read, value⟩ := mapM_digit?_literalBody digits number
  have split : splitRadix (hexLiteral digits number) =
      (.hexadecimal, literalBody digits number) := by
    rw [hexLiteral_eq, splitRadix, List.getLast?_concat, List.dropLast_concat]
    rfl
  simp only [readLiteral, split, startsWithDigit_literalBody, if_true, read, value]
  rfl

/-! ## Tokens -/

theorem isPlainToken_hexLiteral (digits number : Nat) :
    isPlainToken (String.ofList (hexLiteral digits number)) = true := by
  simp only [isPlainToken, String.toList_ofList, hexLiteral_eq, Bool.and_eq_true,
    List.all_eq_true]
  refine ⟨by simp, ?_⟩
  intro character member
  rcases List.mem_append.1 member with inBody | isSuffix
  · exact isPlain_of_mem_literalBody inBody
  · rw [List.mem_singleton.1 isSuffix]
    decide

/-- A text that begins with a decimal digit and goes on. -/
theorem exists_digit_cons_hexLiteral (digits number : Nat) :
    ∃ first rest, hexLiteral digits number = first :: rest ∧ rest ≠ [] ∧
      ('0' ≤ first && first ≤ '9') = true := by
  have isDigit := startsWithDigit_literalBody digits number
  rw [hexLiteral_eq]
  cases written : literalBody digits number with
  | nil => rw [written] at isDigit; exact absurd isDigit (by decide)
  | cons first rest =>
      rw [written] at isDigit
      exact ⟨first, rest ++ ['H'], rfl, by simp, isDigit⟩

end Intel8085.Source
