import Intel8085.Numbers
import Intel8085.Text.Capital

/-!
# Capitals of capitals

No capital has a capital of its own, so a text in capitals stays as it is when it is put in capitals
again (`upperCase_upperCase`).
-/

set_option autoImplicit false

namespace Intel8085.Text

/-! ## The letters of the case data -/

def CaseRun.codes (run : CaseRun) : List Nat :=
  (List.range ((run.last - run.first) / run.stride + 1)).map fun index =>
    run.first + index * run.stride

/-- The capital of a letter of the run. -/
def CaseRun.capitalOf (run : CaseRun) (code : Nat) : Char :=
  Char.ofNat (code + run.offset).toNat

def asciiRun : CaseRun :=
  ⟨97, 122, 1, -32⟩

/-- The characters that capitals take the place of. -/
def smallLetters : List Nat :=
  (asciiRun :: caseRuns).flatMap CaseRun.codes ++ capitalGroups.map Prod.fst

/-- The characters that capitals are made of; those of ASCII characters come first. -/
def capitalLetters : List Char :=
  (List.range 0x80).map (fun code => (Char.ofNat code).toUpper) ++
    (caseRuns.flatMap fun run => run.codes.map run.capitalOf) ++
    capitalGroups.flatMap fun entry => entry.2.map Char.ofNat

theorem mem_codes_of_includes {run : CaseRun} {code : Nat} (included : run.includes code = true) :
    code ∈ run.codes := by
  simp only [CaseRun.includes, Bool.and_eq_true, decide_eq_true_eq, beq_iff_eq] at included
  obtain ⟨⟨above, below⟩, onStride⟩ := included
  have steps : run.stride * ((code - run.first) / run.stride) = code - run.first :=
    Nat.mul_div_cancel' (Nat.dvd_of_mod_eq_zero onStride)
  have within : (code - run.first) / run.stride ≤ (run.last - run.first) / run.stride :=
    Nat.div_le_div_right (by omega)
  rw [CaseRun.codes, List.mem_map]
  refine ⟨(code - run.first) / run.stride, List.mem_range.2 (by omega), ?_⟩
  rw [Nat.mul_comm, steps]
  omega

/-! ## Comparing them -/

/-- The numbers of a list as the bits of one number. -/
def marked (numbers : List Nat) : Nat :=
  numbers.foldl (fun marks number => marks ||| 2 ^ number) 0

theorem testBit_foldl_marks {numbers : List Nat} {marks number : Nat}
    (present : marks.testBit number = true ∨ number ∈ numbers) :
    (numbers.foldl (fun marks number => marks ||| 2 ^ number) marks).testBit number = true := by
  induction numbers generalizing marks with
  | nil => exact present.resolve_right List.not_mem_nil
  | cons first others inductionHypothesis =>
      rw [List.foldl_cons]
      apply inductionHypothesis
      rcases present with already | member
      · exact Or.inl (by rw [Nat.testBit_or, already, Bool.true_or])
      · rcases List.mem_cons.1 member with rfl | later
        · exact Or.inl (by rw [Nat.testBit_or, Nat.testBit_two_pow_self, Bool.or_true])
        · exact Or.inr later

theorem capitalLetters_checked :
    (let marks := marked smallLetters
     capitalLetters.all fun character => !marks.testBit character.toNat) = true := by
  decide +kernel

theorem not_mem_smallLetters {character : Char} (member : character ∈ capitalLetters) :
    character.toNat ∉ smallLetters := by
  intro small
  have checked := List.all_eq_true.1 capitalLetters_checked character member
  rw [marked, testBit_foldl_marks (Or.inr small)] at checked
  exact absurd checked (by decide)

/-! ## Capitals -/

theorem capital_of_not_mem_smallLetters {character : Char}
    (noSmall : character.toNat ∉ smallLetters) : capital character = [character] := by
  by_cases ascii : character.toNat < 0x80
  · have every : ∀ code : Fin 0x80, code.val ∉ asciiRun.codes →
        (Char.ofNat code).toUpper = Char.ofNat code := by decide
    have noLetter : character.toNat ∉ asciiRun.codes := fun member =>
      noSmall (List.mem_append_left _ (List.mem_flatMap.2 ⟨_, List.mem_cons_self, member⟩))
    have same := every ⟨character.toNat, ascii⟩ noLetter
    rw [Char.ofNat_toNat] at same
    rw [capital_of_ascii ascii, same]
  · have noRun : caseRuns.find? (fun run => run.includes character.toNat) = none := by
      rw [List.find?_eq_none]
      intro run member included
      exact noSmall (List.mem_append_left _ (List.mem_flatMap.2
        ⟨run, List.mem_cons_of_mem _ member, mem_codes_of_includes included⟩))
    have noGroup : capitalGroups.lookup character.toNat = none := by
      rw [List.lookup_eq_none_iff]
      intro entry member
      rw [bne_iff_ne]
      intro same
      exact noSmall (List.mem_append_right _ (List.mem_map.2 ⟨entry, member, same.symm⟩))
    rw [capital, if_neg ascii, capitalBeyondAscii]
    simp only [noRun, noGroup]

/-- Where the capital of a character comes from: ASCII, a run of letters or a group of characters;
and a character that none of these has is its own capital. -/
theorem capital_cases (character : Char) :
    (character.toNat < 0x80 ∧ capital character = [character.toUpper]) ∨
      (∃ run ∈ caseRuns, character.toNat ∈ run.codes ∧
        capital character = [run.capitalOf character.toNat]) ∨
      (∃ group, (character.toNat, group) ∈ capitalGroups ∧
        capital character = group.map Char.ofNat) ∨
      capital character = [character] := by
  by_cases ascii : character.toNat < 0x80
  · exact Or.inl ⟨ascii, capital_of_ascii ascii⟩
  · rw [capital, if_neg ascii, capitalBeyondAscii]
    cases found : caseRuns.find? fun run => run.includes character.toNat with
    | some run =>
        have included := List.find?_some found
        exact Or.inr (Or.inl
          ⟨run, List.mem_of_find?_eq_some found, mem_codes_of_includes included, rfl⟩)
    | none =>
        cases listed : capitalGroups.lookup character.toNat with
        | some group =>
            obtain ⟨front, back, entries, _⟩ := List.lookup_eq_some_iff.1 listed
            have isEntry : (character.toNat, group) ∈ capitalGroups := by
              rw [entries]
              exact List.mem_append_right front List.mem_cons_self
            exact Or.inr (Or.inr (Or.inl ⟨group, isEntry, rfl⟩))
        | none => exact Or.inr (Or.inr (Or.inr rfl))

theorem capital_ne_nil (character : Char) : capital character ≠ [] := by
  have every : ∀ entry ∈ capitalGroups, entry.2 ≠ [] := by decide
  rcases capital_cases character with
    ⟨_, isUpper⟩ | ⟨_, _, _, isCapital⟩ | ⟨group, isEntry, isGroup⟩ | alone
  · simp [isUpper]
  · simp [isCapital]
  · simpa [isGroup] using every _ isEntry
  · simp [alone]

/-- The capital of a character is made of capital letters, or it is the character alone. -/
theorem mem_capital_cases {character letter : Char} (member : letter ∈ capital character) :
    letter ∈ capitalLetters ∨ capital character = [character] := by
  rcases capital_cases character with
    ⟨ascii, isUpper⟩ | ⟨run, isRun, isCode, isCapital⟩ | ⟨group, isEntry, isGroup⟩ | alone
  · left
    rw [isUpper, List.mem_singleton] at member
    refine List.mem_append_left _ (List.mem_append_left _ (List.mem_map.2
      ⟨character.toNat, List.mem_range.2 ascii, ?_⟩))
    rw [Char.ofNat_toNat, member]
  · left
    rw [isCapital, List.mem_singleton] at member
    exact List.mem_append_left _ (List.mem_append_right _ (List.mem_flatMap.2
      ⟨run, isRun, List.mem_map.2 ⟨character.toNat, isCode, member.symm⟩⟩))
  · left
    rw [isGroup] at member
    exact List.mem_append_right _ (List.mem_flatMap.2 ⟨_, isEntry, member⟩)
  · exact Or.inr alone

theorem capital_of_mem_capital {character letter : Char} (member : letter ∈ capital character) :
    capital letter = [letter] := by
  rcases mem_capital_cases member with isCapital | alone
  · exact capital_of_not_mem_smallLetters (not_mem_smallLetters isCapital)
  · rw [alone, List.mem_singleton] at member
    rw [member, alone]

theorem capitals_of_fixed {text : List Char}
    (fixed : ∀ letter ∈ text, capital letter = [letter]) : capitals text = text := by
  induction text with
  | nil => rfl
  | cons letter others inductionHypothesis =>
      obtain ⟨first, rest⟩ := List.forall_mem_cons.1 fixed
      have unchanged := inductionHypothesis rest
      rw [capitals] at unchanged ⊢
      rw [List.flatMap_cons, first, unchanged, List.singleton_append]

theorem capitals_capitals (text : List Char) : capitals (capitals text) = capitals text := by
  apply capitals_of_fixed
  intro letter member
  obtain ⟨character, _, inCapital⟩ := List.mem_flatMap.1 member
  exact capital_of_mem_capital inCapital

theorem upperCase_upperCase (text : String) : upperCase (upperCase text) = upperCase text := by
  rw [upperCase, toList_upperCase, capitals_capitals, ← upperCase]

end Intel8085.Text
