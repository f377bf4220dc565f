import Intel8085.Assembly.Block
import Intel8085.Proofs.Text.Cutting
import Mathlib.Data.List.Basic

/-!
# Plain source text

A token is plain when it is a word of capital letters and digits, as are the tokens of the
instruction set and the numbers that disassembly writes.  An instruction of plain tokens is read
back from its text as it was (`statementOf?_instructionText`), and so is a whole list of them from
the text with one on each line (`statements_intercalate`).
-/

set_option autoImplicit false

namespace Intel8085.Source

open Intel8085.Text Intel8085.Assembly

/-- A capital letter or a decimal digit. -/
def isPlain (character : Char) : Bool :=
  ('A' ≤ character && character ≤ 'Z') || ('0' ≤ character && character ≤ '9')

/-- The token is a word of plain characters. -/
def isPlainToken (token : String) : Bool :=
  !token.toList.isEmpty && token.toList.all isPlain

/-- Every token of the instruction is plain. -/
def IsPlainInstruction (instruction : Instruction) : Prop :=
  isPlainToken instruction.mnemonic = true ∧
    ∀ operand ∈ instruction.operands, isPlainToken operand = true

/-! ## Plain characters -/

theorem range_of_isPlain {character : Char} (plain : isPlain character = true) :
    (48 ≤ character.toNat ∧ character.toNat ≤ 57) ∨
      (65 ≤ character.toNat ∧ character.toNat ≤ 90) := by
  simp only [isPlain, Bool.or_eq_true, Bool.and_eq_true, decide_eq_true_eq, Char.le_def,
    UInt32.le_iff_toNat_le] at plain
  exact plain.symm

theorem isBlank_of_isPlain {character : Char} (plain : isPlain character = true) :
    isBlank character = false := by
  have range := range_of_isPlain plain
  simp only [isBlank, Bool.or_eq_false_iff, Bool.and_eq_false_iff, decide_eq_false_iff_not,
    beq_eq_false_iff_ne]
  omega

theorem isLineBreak_of_isPlain {character : Char} (plain : isPlain character = true) :
    isLineBreak character = false := by
  have range := range_of_isPlain plain
  simp only [isLineBreak, Bool.or_eq_false_iff, Bool.and_eq_false_iff, decide_eq_false_iff_not,
    beq_eq_false_iff_ne]
  omega

theorem ne_of_isPlain {character mark : Char} (plain : isPlain character = true)
    (other : isPlain mark = false) : character ≠ mark := by
  intro same
  rw [same, other] at plain
  exact absurd plain (by decide)

theorem capital_of_isPlain {character : Char} (plain : isPlain character = true) :
    capital character = [character] := by
  have range := range_of_isPlain plain
  have notSmall : ¬ (97 ≤ character.toNat ∧ character.toNat ≤ 122) := by omega
  rw [capital_of_ascii (by omega)]
  delta Char.toUpper
  rw [dif_neg]
  intro small
  apply notSmall
  simpa [UInt32.le_iff_toNat_le] using small

theorem capitals_of_isPlain {text : List Char}
    (plain : ∀ character ∈ text, isPlain character = true) : capitals text = text := by
  induction text with
  | nil => rfl
  | cons character rest inductionHypothesis =>
      have restPlain : ∀ other ∈ rest, isPlain other = true := by
        intro other member
        exact plain other (List.mem_cons_of_mem character member)
      rw [capitals, List.flatMap_cons, capital_of_isPlain (plain character List.mem_cons_self)]
      exact congrArg (character :: ·) (inductionHypothesis restPlain)

/-! ## Plain tokens -/

theorem ne_nil_of_isPlainToken {token : String} (plain : isPlainToken token = true) :
    token.toList ≠ [] := by
  intro empty
  simp [isPlainToken, empty] at plain

theorem isPlain_of_isPlainToken {token : String} (plain : isPlainToken token = true) :
    ∀ character ∈ token.toList, isPlain character = true := by
  simp only [isPlainToken, Bool.and_eq_true, List.all_eq_true] at plain
  exact plain.2

theorem isBlank_of_isPlainToken {token : String} (plain : isPlainToken token = true) :
    ∀ character ∈ token.toList, isBlank character = false := fun character member =>
  isBlank_of_isPlain (isPlain_of_isPlainToken plain character member)

theorem upperCase_of_isPlainToken {token : String} (plain : isPlainToken token = true) :
    upperCase token = token := by
  rw [upperCase, capitals_of_isPlain (isPlain_of_isPlainToken plain), String.ofList_toList]

theorem capitalText_toList {token : String} (plain : isPlainToken token = true) :
    capitalText token.toList = token :=
  upperCase_of_isPlainToken plain

theorem trim_toList {token : String} (plain : isPlainToken token = true) :
    trim token.toList = token.toList := by
  have noBlank := isBlank_of_isPlainToken plain
  apply trim_eq_self
  · intro first isFirst
    exact noBlank first (List.mem_of_head? isFirst)
  · intro last isLast
    exact noBlank last (List.mem_of_getLast? isLast)

/-! ## Operand lists -/

theorem foldr_widenFirst {part : List Char} (noComma : ',' ∉ part) (first : List Char)
    (others : List (List Char)) :
    part.foldr (fun character parts =>
        if character == ',' then [] :: parts else widenFirst character parts) (first :: others) =
      (part ++ first) :: others := by
  induction part with
  | nil => rfl
  | cons character rest inductionHypothesis =>
      rw [List.mem_cons, not_or] at noComma
      have other : (character == ',') = false := by simpa using Ne.symm noComma.1
      rw [List.foldr_cons, inductionHypothesis noComma.2, other]
      rfl

theorem splitAtCommas_append_comma {part : List Char} (noComma : ',' ∉ part) (rest : List Char) :
    splitAtCommas (part ++ ',' :: rest) = part :: splitAtCommas rest := by
  rw [splitAtCommas, List.foldr_append, List.foldr_cons]
  exact (foldr_widenFirst noComma [] _).trans (by rw [List.append_nil]; rfl)

theorem splitAtCommas_of_no_comma {part : List Char} (noComma : ',' ∉ part) :
    splitAtCommas part = [part] := by
  rw [splitAtCommas, foldr_widenFirst noComma, List.append_nil]

theorem splitAtCommas_intercalate {parts : List (List Char)} (some : parts ≠ [])
    (noComma : ∀ part ∈ parts, ',' ∉ part) :
    splitAtCommas (List.intercalate [','] parts) = parts := by
  induction parts with
  | nil => exact absurd rfl some
  | cons part others inductionHypothesis =>
      have partFree := noComma part List.mem_cons_self
      cases others with
      | nil =>
          rw [List.intercalate_singleton]
          exact splitAtCommas_of_no_comma partFree
      | cons next later =>
          have laterParts := inductionHypothesis (List.cons_ne_nil next later)
            (fun other member => noComma other (List.mem_cons_of_mem part member))
          rw [List.intercalate_cons_cons, List.append_assoc, List.singleton_append,
            splitAtCommas_append_comma partFree, laterParts]

theorem not_mem_comma {token : String} (plain : isPlainToken token = true) : ',' ∉ token.toList := by
  intro member
  exact absurd (isPlain_of_isPlainToken plain ',' member) (by decide)

/-- The text of an operand list. -/
def joinOperands (operands : List String) : List Char :=
  List.intercalate [','] (operands.map String.toList)

theorem joinOperands_cons_cons (operand next : String) (later : List String) :
    joinOperands (operand :: next :: later) =
      operand.toList ++ ',' :: joinOperands (next :: later) := by
  rw [joinOperands, joinOperands, List.map_cons, List.map_cons, List.intercalate_cons_cons,
    List.append_assoc, List.singleton_append]

theorem joinOperands_singleton (operand : String) : joinOperands [operand] = operand.toList :=
  List.intercalate_singleton

theorem joinOperands_ne_nil {operands : List String} (some : operands ≠ [])
    (plain : ∀ operand ∈ operands, isPlainToken operand = true) : joinOperands operands ≠ [] := by
  cases operands with
  | nil => exact absurd rfl some
  | cons operand others =>
      have nonempty := ne_nil_of_isPlainToken (plain operand List.mem_cons_self)
      cases others with
      | nil => rwa [joinOperands_singleton]
      | cons next later => rw [joinOperands_cons_cons]; simp

theorem mem_joinOperands {operands : List String} {character : Char}
    (plain : ∀ operand ∈ operands, isPlainToken operand = true)
    (member : character ∈ joinOperands operands) : isPlain character = true ∨ character = ',' := by
  induction operands with
  | nil => exact absurd member (by simp [joinOperands])
  | cons operand others inductionHypothesis =>
      have operandPlain := isPlain_of_isPlainToken (plain operand List.mem_cons_self)
      cases others with
      | nil =>
          rw [joinOperands_singleton] at member
          exact Or.inl (operandPlain character member)
      | cons next later =>
          rw [joinOperands_cons_cons, List.mem_append, List.mem_cons] at member
          rcases member with inOperand | isComma | inLater
          · exact Or.inl (operandPlain character inOperand)
          · exact Or.inr isComma
          · exact inductionHypothesis
              (fun other isOther => plain other (List.mem_cons_of_mem operand isOther)) inLater

theorem isPlain_head_joinOperands {operands : List String} {first : Char}
    (plain : ∀ operand ∈ operands, isPlainToken operand = true)
    (isFirst : (joinOperands operands).head? = some first) : isPlain first = true := by
  cases operands with
  | nil => exact absurd isFirst (by simp [joinOperands])
  | cons operand others =>
      have operandPlain := plain operand List.mem_cons_self
      have front : ∃ rest, joinOperands (operand :: others) = operand.toList ++ rest := by
        cases others with
        | nil => exact ⟨[], by rw [joinOperands_singleton, List.append_nil]⟩
        | cons next later => exact ⟨_, joinOperands_cons_cons operand next later⟩
      obtain ⟨rest, shape⟩ := front
      rw [shape, List.head?_append, Option.or_eq_some_iff, List.head?_eq_none_iff] at isFirst
      rcases isFirst with inOperand | ⟨empty, _⟩
      · exact isPlain_of_isPlainToken operandPlain first (List.mem_of_head? inOperand)
      · exact absurd empty (ne_nil_of_isPlainToken operandPlain)

theorem isPlain_last_joinOperands {operands : List String} {last : Char}
    (plain : ∀ operand ∈ operands, isPlainToken operand = true)
    (isLast : (joinOperands operands).getLast? = some last) : isPlain last = true := by
  induction operands with
  | nil => exact absurd isLast (by simp [joinOperands])
  | cons operand others inductionHypothesis =>
      have operandPlain := isPlain_of_isPlainToken (plain operand List.mem_cons_self)
      have othersPlain : ∀ other ∈ others, isPlainToken other = true := by
        intro other isOther
        exact plain other (List.mem_cons_of_mem operand isOther)
      cases others with
      | nil =>
          rw [joinOperands_singleton] at isLast
          exact operandPlain last (List.mem_of_getLast? isLast)
      | cons next later =>
          have written := joinOperands_ne_nil (List.cons_ne_nil next later) othersPlain
          rw [joinOperands_cons_cons, List.getLast?_append, List.getLast?_cons_of_ne_nil written,
            Option.or_eq_some_iff] at isLast
          rcases isLast with inLater | ⟨_, inOperand⟩
          · exact inductionHypothesis othersPlain inLater
          · exact operandPlain last (List.mem_of_getLast? inOperand)

theorem operandsOf_joinOperands {operands : List String}
    (plain : ∀ operand ∈ operands, isPlainToken operand = true) :
    operandsOf (joinOperands operands) = operands := by
  by_cases empty : operands = []
  · rw [empty]
    rfl
  · have written : (joinOperands operands).isEmpty = false := by
      simpa using joinOperands_ne_nil empty plain
    have parts : splitAtCommas (joinOperands operands) = operands.map String.toList := by
      apply splitAtCommas_intercalate (by simpa using empty)
      intro part member
      obtain ⟨operand, isOperand, rfl⟩ := List.mem_map.1 member
      exact not_mem_comma (plain operand isOperand)
    have readBack : ∀ operand ∈ operands, capitalText (trim operand.toList) = operand := by
      intro operand member
      rw [trim_toList (plain operand member), capitalText_toList (plain operand member)]
    rw [operandsOf, written, parts, List.map_map]
    exact (List.map_congr_left readBack).trans (List.map_id operands)

/-! ## Instructions -/

theorem toList_instructionText (instruction : Instruction) :
    (instructionText instruction).toList =
      if instruction.operands = [] then instruction.mnemonic.toList
      else instruction.mnemonic.toList ++ ' ' :: joinOperands instruction.operands := by
  have space : " ".toList = [' '] := by decide
  have comma : ",".toList = [','] := by decide
  by_cases empty : instruction.operands = []
  · simp [instructionText, empty]
  · simp [instructionText, empty, joinOperands, String.toList_intercalate, space, comma]

theorem mem_instructionText {instruction : Instruction} (plain : IsPlainInstruction instruction)
    {character : Char} (member : character ∈ (instructionText instruction).toList) :
    isPlain character = true ∨ character = ' ' ∨ character = ',' := by
  have mnemonicPlain := isPlain_of_isPlainToken plain.1
  rw [toList_instructionText] at member
  split at member
  · exact Or.inl (mnemonicPlain character member)
  · rw [List.mem_append, List.mem_cons] at member
    rcases member with inMnemonic | isSpace | inOperands
    · exact Or.inl (mnemonicPlain character inMnemonic)
    · exact Or.inr (Or.inl isSpace)
    · exact (mem_joinOperands plain.2 inOperands).imp_right Or.inr

theorem instructionText_ne_nil {instruction : Instruction} (plain : IsPlainInstruction instruction) :
    (instructionText instruction).toList ≠ [] := by
  rw [toList_instructionText]
  split
  · exact ne_nil_of_isPlainToken plain.1
  · simp

theorem isLineBreak_of_mem_instructionText {instruction : Instruction}
    (plain : IsPlainInstruction instruction) :
    ∀ character ∈ (instructionText instruction).toList, isLineBreak character = false := by
  intro character member
  rcases mem_instructionText plain member with isPlain | rfl | rfl
  · exact isLineBreak_of_isPlain isPlain
  · decide
  · decide

theorem codeOf_instructionText {instruction : Instruction} (plain : IsPlainInstruction instruction) :
    codeOf (instructionText instruction).toList = (instructionText instruction).toList := by
  have noComment : ∀ character ∈ (instructionText instruction).toList, (character != ';') = true := by
    intro character member
    rcases mem_instructionText plain member with isPlain | rfl | rfl
    · simpa using ne_of_isPlain isPlain (by decide)
    · decide
    · decide
  have kept : (instructionText instruction).toList.takeWhile (fun character => character != ';') =
      (instructionText instruction).toList := by
    rw [← List.append_nil (instructionText instruction).toList,
      List.takeWhile_append_of_pos noComment]
    rfl
  have mnemonicPlain := isBlank_of_isPlainToken plain.1
  rw [codeOf, kept]
  apply trim_eq_self
  · intro first isFirst
    rw [toList_instructionText] at isFirst
    split at isFirst
    · exact mnemonicPlain first (List.mem_of_head? isFirst)
    · rw [Option.mem_def, List.head?_append, Option.or_eq_some_iff, List.head?_eq_none_iff]
        at isFirst
      rcases isFirst with inMnemonic | ⟨empty, _⟩
      · exact mnemonicPlain first (List.mem_of_head? inMnemonic)
      · exact absurd empty (ne_nil_of_isPlainToken plain.1)
  · intro last isLast
    rw [toList_instructionText] at isLast
    split at isLast
    · exact mnemonicPlain last (List.mem_of_getLast? isLast)
    · rename_i some
      rw [Option.mem_def, List.getLast?_append,
        List.getLast?_cons_of_ne_nil (joinOperands_ne_nil some plain.2),
        Option.or_eq_some_iff] at isLast
      rcases isLast with inOperands | ⟨_, inMnemonic⟩
      · exact isBlank_of_isPlain (isPlain_last_joinOperands plain.2 inOperands)
      · exact mnemonicPlain last (List.mem_of_getLast? inMnemonic)

theorem word_instructionText {instruction : Instruction} (plain : IsPlainInstruction instruction) :
    word (instructionText instruction).toList = instruction.mnemonic.toList := by
  have mnemonicPlain := isBlank_of_isPlainToken plain.1
  rw [toList_instructionText]
  split
  · exact word_of_no_blank mnemonicPlain
  · exact word_append_blank mnemonicPlain (by decide) _

theorem afterWord_instructionText {instruction : Instruction}
    (plain : IsPlainInstruction instruction) :
    afterWord (instructionText instruction).toList = joinOperands instruction.operands := by
  have mnemonicPlain := isBlank_of_isPlainToken plain.1
  rw [toList_instructionText]
  split
  · rename_i empty
    rw [afterWord_of_no_blank mnemonicPlain, empty]
    rfl
  · rw [afterWord_append_blank mnemonicPlain (by decide)]
    cases joined : joinOperands instruction.operands with
    | nil => rfl
    | cons first rest =>
        have isFirst : (joinOperands instruction.operands).head? = some first := by
          rw [joined]
          rfl
        exact trimStart_cons (isBlank_of_isPlain (isPlain_head_joinOperands plain.2 isFirst)) rest

theorem statementOf?_instructionText {instruction : Instruction}
    (plain : IsPlainInstruction instruction) :
    statementOf? (instructionText instruction).toList =
      some { label := none, instruction := some instruction } := by
  have written : (instructionText instruction).toList.isEmpty = false := by
    simpa using instructionText_ne_nil plain
  have noLabel : (instruction.mnemonic.toList.getLast? == some ':') = false := by
    apply Bool.eq_false_iff.2
    intro isColon
    have member := List.mem_of_getLast? (beq_iff_eq.1 isColon)
    exact absurd (isPlain_of_isPlainToken plain.1 ':' member) (by decide)
  have readBack : instructionOf (instructionText instruction).toList = instruction := by
    rw [instructionOf, word_instructionText plain, afterWord_instructionText plain,
      capitalText_toList plain.1, operandsOf_joinOperands plain.2]
  simp only [statementOf?, codeOf_instructionText plain, written, word_instructionText plain,
    noLabel, readBack, Bool.false_eq_true, if_false]

theorem filterMap_eq_map_of_some {Item Image : Type} {function : Item → Option Image}
    {image : Item → Image} {items : List Item}
    (found : ∀ item ∈ items, function item = some (image item)) :
    items.filterMap function = items.map image := by
  rw [List.filterMap_congr found]
  exact congrFun List.filterMap_eq_map items

/-- Instructions written one on each line are the statements of the text, numbered from one. -/
theorem statements_intercalate {instructions : List Instruction}
    (plain : ∀ instruction ∈ instructions, IsPlainInstruction instruction) :
    statements ("\n".intercalate (instructions.map instructionText)).toList =
      instructions.zipIdx.map fun (instruction, index) =>
        { line := index + 1, statement := { label := none, instruction := some instruction } } := by
  have feed : "\n".toList = ['\n'] := by decide
  have cut : lines (List.intercalate ['\n']
      (instructions.map fun instruction => (instructionText instruction).toList)) =
      instructions.map fun instruction => (instructionText instruction).toList := by
    apply lines_intercalate
    · intro text member
      obtain ⟨instruction, isInstruction, rfl⟩ := List.mem_map.1 member
      exact instructionText_ne_nil (plain instruction isInstruction)
    · intro text member
      obtain ⟨instruction, isInstruction, rfl⟩ := List.mem_map.1 member
      exact isLineBreak_of_mem_instructionText (plain instruction isInstruction)
  rw [String.toList_intercalate, feed, List.map_map, statements]
  change ((lines (List.intercalate ['\n']
      (instructions.map fun instruction => (instructionText instruction).toList))).zipIdx.filterMap
    _) = _
  rw [cut, List.zipIdx_map, List.filterMap_map]
  apply filterMap_eq_map_of_some
  rintro ⟨instruction, index⟩ member
  have isInstruction := List.fst_mem_of_mem_zipIdx member
  simp only [Function.comp_apply, Prod.map, id_eq]
  rw [statementOf?_instructionText (plain instruction isInstruction)]
  rfl

end Intel8085.Source
