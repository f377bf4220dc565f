import Intel8085.Proofs.Source.Rewriting
import Intel8085.Proofs.Text.Digits
import Intel8085.Proofs.Text.Marks
import Intel8085.Shell.Argument
import Mathlib.Data.List.TakeWhile

/-!
# Numbers as arguments

A number is written in four notations (`Writes`), with blanks allowed around it (`IsArgument`), and
each is read as the number.  Two numbers with a colon between are a range.  A text without a colon
is no range, and neither is one with something before or behind the first colon that is not read as
a number.
-/

set_option autoImplicit false

namespace Intel8085.Shell

open Intel8085.Text Intel8085.Source

/-- The text is a number in base sixteen with a mark or a dollar sign in front or the letter
behind, or it is a number in base ten with no more digits than are read. -/
inductive Writes : List Char → Nat → Prop where
  | marked {letter : Char} (isMark : letter = 'x' ∨ letter = 'X') {digits : List Char}
      {number : Nat} (positional : IsPositional .sixteen digits number) :
      Writes ('0' :: letter :: digits) number
  | lettered {letter : Char} (isLetter : letter = 'H' ∨ letter = 'h') {digits : List Char}
      {number : Nat} (positional : IsPositional .sixteen digits number) :
      Writes (digits ++ [letter]) number
  | dollar {digits : List Char} {number : Nat}
      (positional : IsPositional .sixteen digits number) : Writes ('$' :: digits) number
  | decimal {digits : List Char} {number : Nat} (positional : IsPositional .ten digits number)
      (short : digits.length ≤ longestDecimal) : Writes digits number

/-- The text is a number in one of its notations, with any blanks around it. -/
inductive IsArgument : List Char → Nat → Prop where
  | intro {front written back : List Char} {number : Nat}
      (blankFront : ∀ character ∈ front, isBlank character = true)
      (writes : Writes written number)
      (blankBack : ∀ character ∈ back, isBlank character = true) :
      IsArgument (front ++ written ++ back) number

/-! ## Telling the notations apart -/

theorem hasMark_of_not_mem {text : List Char} (noSmall : 'x' ∉ text) (noCapital : 'X' ∉ text) :
    hasMark text = false := by
  rw [hasMark.eq_def]
  split
  · simp only [List.mem_cons, not_or] at noSmall noCapital
    simp [Ne.symm noSmall.2.1, Ne.symm noCapital.2.1]
  · rfl

/-- Only the last character decides, as a capital is never empty. -/
theorem hasLetter_append_singleton (front : List Char) (last : Char) :
    hasLetter (front ++ [last]) = ((capital last).getLast? == some 'H') := by
  have lastCapitals : capitals [last] = capital last := List.flatMap_singleton capital last
  rw [hasLetter, capitals_append, lastCapitals,
    List.getLast?_append_of_ne_nil _ (capital_ne_nil last)]

section Positional

variable {base : Base} {digits : List Char} {number : Nat}
  (positional : IsPositional base digits number)
include positional

theorem isNumberSign_of_mem_digits {character : Char} (member : character ∈ digits) :
    isNumberSign character = true := by
  obtain ⟨digit, isDigit⟩ := positional.exists_isHexDigit member
  exact isDigit.isNumberSign

theorem not_mem_digits :
    'x' ∉ digits ∧ 'X' ∉ digits ∧ '$' ∉ digits := by
  refine ⟨?_, ?_, ?_⟩
  all_goals
    intro member
    obtain ⟨digit, isDigit⟩ := positional.exists_isHexDigit member
    obtain ⟨notSmall, notCapital, notDollar, _⟩ := isDigit.ne
    contradiction

theorem hasLetter_append_digits (front : List Char) : hasLetter (front ++ digits) = false := by
  obtain ⟨before, last, rfl⟩ := List.eq_nil_or_concat digits |>.resolve_left positional.ne_nil
  have member : last ∈ before.concat last := by simp
  obtain ⟨digit, isDigit⟩ := positional.exists_isHexDigit member
  rw [List.concat_eq_append, ← List.append_assoc, hasLetter_append_singleton]
  exact isDigit.of_all (by decide +kernel)

end Positional

theorem isNumberSign_of_writes {written : List Char} {number : Nat}
    (writes : Writes written number) : ∀ character ∈ written, isNumberSign character = true := by
  intro character member
  cases writes with
  | marked isMark positional =>
      simp only [List.mem_cons] at member
      rcases member with rfl | rfl | inDigits
      · decide
      · rcases isMark with rfl | rfl <;> decide
      · exact isNumberSign_of_mem_digits positional inDigits
  | lettered isLetter positional =>
      rcases List.mem_append.1 member with inDigits | isLast
      · exact isNumberSign_of_mem_digits positional inDigits
      · rw [List.mem_singleton.1 isLast]
        rcases isLetter with rfl | rfl <;> decide
  | dollar positional =>
      rcases List.mem_cons.1 member with rfl | inDigits
      · decide
      · exact isNumberSign_of_mem_digits positional inDigits
  | decimal positional short => exact isNumberSign_of_mem_digits positional member

/-! ## Reading -/

theorem integer?_of_isPositional {base : Base} {digits : List Char} {number : Nat}
    (positional : IsPositional base digits number)
    (short : base = .ten → digits.length ≤ longestDecimal) :
    integer? base digits = some (number : Int) := by
  rw [integer?_of_isNumberSign fun _ => isNumberSign_of_mem_digits positional,
    natural?_of_isPositional positional short]
  rfl

section Trimmed

variable {text digits : List Char} {number : Nat} {letter : Char}

theorem integerArgument?_marked (isMark : letter = 'x' ∨ letter = 'X')
    (positional : IsPositional .sixteen digits number)
    (trimmed : trim text = '0' :: letter :: digits) :
    integerArgument? text = some (number : Int) := by
  have marked : hasMark ('0' :: letter :: digits) = true := by
    rcases isMark with rfl | rfl <;> rfl
  have signs := isNumberSign_of_writes (.marked isMark positional)
  rw [integerArgument?, trimmed, if_pos marked, integer?_of_isNumberSign signs,
    natural?_of_mark isMark positional]
  rfl

theorem integerArgument?_lettered (isLetter : letter = 'H' ∨ letter = 'h')
    (positional : IsPositional .sixteen digits number) (trimmed : trim text = digits ++ [letter]) :
    integerArgument? text = some (number : Int) := by
  obtain ⟨noSmall, noCapital, _⟩ := not_mem_digits positional
  have unmarked : hasMark (digits ++ [letter]) = false := by
    apply hasMark_of_not_mem
    · rcases isLetter with rfl | rfl <;> simp [noSmall]
    · rcases isLetter with rfl | rfl <;> simp [noCapital]
  have lettered : hasLetter (digits ++ [letter]) = true := by
    rw [hasLetter_append_singleton]
    rcases isLetter with rfl | rfl <;> decide
  have fewEnough : Base.sixteen = .ten → digits.length ≤ longestDecimal := nofun
  simp only [integerArgument?, trimmed, unmarked, lettered, Bool.false_eq_true, if_false, if_true,
    List.dropLast_concat]
  exact integer?_of_isPositional positional fewEnough

theorem integerArgument?_dollar (positional : IsPositional .sixteen digits number)
    (trimmed : trim text = '$' :: digits) : integerArgument? text = some (number : Int) := by
  obtain ⟨noSmall, noCapital, _⟩ := not_mem_digits positional
  have unmarked : hasMark ('$' :: digits) = false :=
    hasMark_of_not_mem (by simp [noSmall]) (by simp [noCapital])
  have unlettered : hasLetter ('$' :: digits) = false := hasLetter_append_digits positional ['$']
  have fewEnough : Base.sixteen = .ten → digits.length ≤ longestDecimal := nofun
  simp only [integerArgument?, trimmed, unmarked, unlettered, Bool.false_eq_true, if_false,
    List.head?_cons, beq_self_eq_true, if_true, List.tail_cons]
  exact integer?_of_isPositional positional fewEnough

theorem integerArgument?_decimal (positional : IsPositional .ten digits number)
    (short : digits.length ≤ longestDecimal) (trimmed : trim text = digits) :
    integerArgument? text = some (number : Int) := by
  obtain ⟨noSmall, noCapital, noDollar⟩ := not_mem_digits positional
  have unmarked : hasMark digits = false := hasMark_of_not_mem noSmall noCapital
  have unlettered : hasLetter digits = false := hasLetter_append_digits positional []
  have undollared : (digits.head? == some '$') = false := by
    apply Bool.eq_false_iff.2
    intro isFirst
    exact noDollar (List.mem_of_head? (beq_iff_eq.1 isFirst))
  simp only [integerArgument?, trimmed, unmarked, unlettered, undollared, Bool.false_eq_true,
    if_false]
  exact integer?_of_isPositional positional fun _ => short

end Trimmed

theorem integerArgument?_of_isArgument {text : List Char} {number : Nat}
    (isArgument : IsArgument text number) : integerArgument? text = some (number : Int) := by
  obtain ⟨blankFront, writes, blankBack⟩ := isArgument
  rename_i front written back
  have free : ∀ character ∈ written, isBlank character = false := fun character member =>
    (isNumberSign_facts (isNumberSign_of_writes writes character member)).1
  have trimmed : trim (front ++ written ++ back) = written := trim_between_blanks blankFront
    blankBack (startsPlain_of_free free) (endsPlain_of_free free)
  cases writes with
  | marked isMark positional => exact integerArgument?_marked isMark positional trimmed
  | lettered isLetter positional => exact integerArgument?_lettered isLetter positional trimmed
  | dollar positional => exact integerArgument?_dollar positional trimmed
  | decimal positional short => exact integerArgument?_decimal positional short trimmed

/-! ## Ranges -/

theorem not_mem_colon_of_isArgument {text : List Char} {number : Nat}
    (isArgument : IsArgument text number) : ':' ∉ text := by
  obtain ⟨blankFront, writes, blankBack⟩ := isArgument
  intro member
  rw [List.mem_append, List.mem_append] at member
  rcases member with (inFront | inWritten) | inBack
  · exact absurd (blankFront ':' inFront) (by decide)
  · exact absurd (isNumberSign_of_writes writes ':' inWritten) (by decide)
  · exact absurd (blankBack ':' inBack) (by decide)

theorem ne_colon_of_not_mem {text : List Char} (noColon : ':' ∉ text) :
    ∀ character ∈ text, (character != ':') = true := by
  intro character member
  rw [bne_iff_ne]
  rintro rfl
  exact noColon member

theorem rangeArgument_of_not_mem {argument : String} (noColon : ':' ∉ argument.toList) :
    rangeArgument argument = .error .noColon := by
  have nothing : argument.toList.dropWhile (fun character => character != ':') = [] :=
    List.dropWhile_eq_nil_iff.2 (ne_colon_of_not_mem noColon)
  rw [rangeArgument, nothing]

section Colon

variable {front behind : List Char} (noColon : ':' ∉ front)
include noColon

theorem takeWhile_append_colon :
    (front ++ ':' :: behind).takeWhile (fun character => character != ':') = front := by
  rw [List.takeWhile_append_of_pos (ne_colon_of_not_mem noColon),
    List.takeWhile_cons_of_neg (by decide), List.append_nil]

theorem dropWhile_append_colon :
    (front ++ ':' :: behind).dropWhile (fun character => character != ':') = ':' :: behind := by
  rw [List.dropWhile_append_of_pos (ne_colon_of_not_mem noColon),
    List.dropWhile_cons_of_neg (by decide)]

theorem rangeArgument_of_read {start length : Int} (readFront : integerArgument? front = some start)
    (readBehind : integerArgument? behind = some length) :
    rangeArgument (String.ofList (front ++ ':' :: behind)) = .ok (start, length) := by
  simp only [rangeArgument, String.toList_ofList, dropWhile_append_colon noColon,
    takeWhile_append_colon noColon, readFront, readBehind]

theorem rangeArgument_of_rejected
    (rejected : integerArgument? front = none ∨ integerArgument? behind = none) :
    rangeArgument (String.ofList (front ++ ':' :: behind)) =
      .error (.badRange (String.ofList (front ++ ':' :: behind))) := by
  simp only [rangeArgument, String.toList_ofList, dropWhile_append_colon noColon,
    takeWhile_append_colon noColon]
  split
  · rename_i readFront readBehind
    rcases rejected with frontRejected | behindRejected
    · cases frontRejected.symm.trans readFront
    · cases behindRejected.symm.trans readBehind
  · rfl

end Colon

/-- Every notation of a number is read as the number, and two of them with a colon between as the
range of the two.  Without a colon a text is no range, and it is none either when what stands before
the first colon or behind it is not read as a number. -/
theorem arguments_are_read :
    (∀ (text : List Char) (number : Nat), IsArgument text number →
      integerArgument? text = some (number : Int)) ∧
    (∀ (front behind : List Char) (start length : Nat),
      IsArgument front start → IsArgument behind length →
      rangeArgument (String.ofList (front ++ ':' :: behind)) =
        .ok ((start : Int), (length : Int))) ∧
    (∀ argument : String, ':' ∉ argument.toList → rangeArgument argument = .error .noColon) ∧
    (∀ front behind : List Char, ':' ∉ front →
      (integerArgument? front = none ∨ integerArgument? behind = none) →
      rangeArgument (String.ofList (front ++ ':' :: behind)) =
        .error (.badRange (String.ofList (front ++ ':' :: behind)))) := by
  refine ⟨fun _ _ => integerArgument?_of_isArgument, ?_, fun _ => rangeArgument_of_not_mem,
    fun _ _ => rangeArgument_of_rejected⟩
  intro front behind start length isStart isLength
  exact rangeArgument_of_read (not_mem_colon_of_isArgument isStart)
    (integerArgument?_of_isArgument isStart) (integerArgument?_of_isArgument isLength)

theorem arguments_are_read_of_mixed_case :
    integerArgument? " 00bFh\n".toList = some 191 ∧
    rangeArgument "$Bf:0191" = .ok (191, 191) ∧
    rangeArgument "0x10" = .error .noColon ∧
    rangeArgument "0x:1" = .error (.badRange "0x:1") := by
  obtain ⟨agree, range, noColon, rejected⟩ := arguments_are_read
  have behindZeros : IsPositional .sixteen "00bF".toList 191 := ⟨2, by decide +kernel⟩
  have twoDigits : IsPositional .sixteen "Bf".toList 191 := ⟨0, by decide +kernel⟩
  have decimalDigits : IsPositional .ten "0191".toList 191 := ⟨1, by decide +kernel⟩
  have noBlanks : ∀ character ∈ ([] : List Char), isBlank character = true := List.forall_mem_nil _
  have betweenBlanks : IsArgument ([' '] ++ "00bFh".toList ++ ['\n']) 191 :=
    .intro (List.forall_mem_singleton.2 (by decide)) (.lettered (Or.inr rfl) behindZeros)
      (List.forall_mem_singleton.2 (by decide))
  have start : IsArgument ([] ++ "$Bf".toList ++ []) 191 :=
    .intro noBlanks (.dollar twoDigits) noBlanks
  have length : IsArgument ([] ++ "0191".toList ++ []) 191 :=
    .intro noBlanks (.decimal decimalDigits (by decide)) noBlanks
  refine ⟨agree _ 191 betweenBlanks, range _ _ 191 191 start length, ?_, ?_⟩
  · exact noColon "0x10" (by decide)
  · exact rejected "0x".toList "1".toList (by decide) (.inl (by decide +kernel))

end Intel8085.Shell
