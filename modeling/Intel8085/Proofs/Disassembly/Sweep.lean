import Intel8085.Disassembly.Line
import Intel8085.Proofs.Assembly.Immediates
import Intel8085.Proofs.InstructionSet.StandardForms
import Intel8085.Proofs.Results

/-!
# Sweeping an image

`Swept` says how an image is cut into lines, and `sweep_of_swept` that the sweep of the whole image
gives those lines.  With the standard table every image can be swept: each line is an instruction
with all of its bytes or a stretch of data, and the bytes of the lines are the image
(`exists_swept_standard`).
-/

set_option autoImplicit false

namespace Intel8085.Disassembly

open Intel8085.Text Intel8085.Source Intel8085.Assembly

/-! ## Lines -/

/-- The line of an instruction with a form and the bytes of its immediate. -/
def codeLine (order : ByteOrder) (form : Form) (opcode : UInt8) (bytes : List UInt8)
    (address : Int) : Line where
  address := address
  raw := opcode :: bytes
  text := filledText form.mnemonic form.operands (order.joinWord bytes).toNat
  cycles := form.cycles
  states := form.states

/-- Every placeholder has room for a byte at least. -/
theorem isPlaceholder_of_width_zero {form : Form} (bare : form.width = 0) {token : String}
    (member : token ∈ form.operands) : Token.isPlaceholder token = false := by
  rw [form.width_eq, widthOf, List.sum_eq_zero_iff_forall_eq_nat] at bare
  have noRoom := bare (Token.width token) (List.mem_map_of_mem member)
  simp only [Token.width] at noRoom
  split at noRoom
  · cases noRoom
  · rename_i notByte
    split at noRoom
    · cases noRoom
    · rename_i notWord
      simp only [Token.isPlaceholder, notByte, notWord, Bool.or_self]

theorem text_of_width_zero {form : Form} (bare : form.width = 0) :
    form.text none = .ok (filledText form.mnemonic form.operands 0) := by
  have noPlaceholder : form.operands.any Token.isPlaceholder = false := by
    rw [List.any_eq_false]
    intro token member
    rw [isPlaceholder_of_width_zero bare member]
    exact Bool.false_ne_true
  simp only [Form.text, Form.tokens, patternText, List.tail_cons, noPlaceholder, Bool.and_false,
    Bool.false_eq_true, if_false, Option.getD_none]

theorem instructionLine_of_narrow {order : ByteOrder} {form : Form} (narrow : form.width ≤ 2)
    {opcode : UInt8} {bytes : List UInt8} (complete : bytes.length = form.width) (address : Int) :
    instructionLine order form (opcode :: bytes) address =
      .ok (codeLine order form opcode bytes address) := by
  obtain width | width | width : form.width = 0 ∨ form.width = 1 ∨ form.width = 2 := by omega
  · obtain rfl : bytes = [] := List.length_eq_zero_iff.1 (complete.trans width)
    have value : immediate order form [opcode] = .ok none := by
      rw [immediate, width]
      rfl
    simp only [instructionLine, value, bind, Except.bind, text_of_width_zero width]
    rfl
  · obtain ⟨byte, rfl⟩ := List.length_eq_one_iff.1 (complete.trans width)
    have value : immediate order form [opcode, byte] =
        .ok (some ((order.joinWord [byte]).toNat : Int)) := by
      rw [immediate, width, joinWord_singleton]
      rfl
    rw [instructionLine, value]
    rfl
  · have value : immediate order form (opcode :: bytes) =
        .ok (some ((order.joinWord bytes).toNat : Int)) := by
      rw [immediate, width]
      rfl
    rw [instructionLine, value]
    rfl

section FrontLine

variable {table : OpcodeTable} {order : ByteOrder} {opcode : UInt8}

theorem frontLine_of_no_form (missing : table.form? opcode = none) (rest : List UInt8)
    (address : Int) : frontLine table order opcode rest address = .ok (dataLine [opcode] address) := by
  rw [frontLine, missing]

theorem frontLine_of_cut {form : Form} (found : table.form? opcode = some form)
    {rest : List UInt8} (cut : rest.length < form.width) (address : Int) :
    frontLine table order opcode rest address = .ok (dataLine (opcode :: rest) address) := by
  have everything : rest.take form.width = rest := List.take_of_length_le (by omega)
  simp only [frontLine, found, everything, if_pos cut]

theorem frontLine_of_narrow {form : Form} (found : table.form? opcode = some form)
    (narrow : form.width ≤ 2) {rest : List UInt8} (whole : form.width ≤ rest.length)
    (address : Int) :
    frontLine table order opcode rest address =
      .ok (codeLine order form opcode (rest.take form.width) address) := by
  have complete : (rest.take form.width).length = form.width := by
    rw [List.length_take]
    omega
  have notCut : ¬ (rest.take form.width).length < form.width := by omega
  simp only [frontLine, found, if_neg notCut]
  exact instructionLine_of_narrow narrow complete address

/-- The line at the front of an image holds data, or an instruction with all of its bytes. -/
inductive IsFrontLine (table : OpcodeTable) (order : ByteOrder) (opcode : UInt8) (address : Int) :
    Line → Prop where
  | data {raw : List UInt8} (holdsBytes : raw ≠ []) :
      IsFrontLine table order opcode address (dataLine raw address)
  | code {form : Form} {bytes : List UInt8} (found : table.form? opcode = some form)
      (complete : bytes.length = form.width) :
      IsFrontLine table order opcode address (codeLine order form opcode bytes address)

theorem IsFrontLine.raw_ne_nil {address : Int} {line : Line}
    (isFront : IsFrontLine table order opcode address line) : line.raw ≠ [] := by
  cases isFront with
  | data holdsBytes => exact holdsBytes
  | code _ _ => exact List.cons_ne_nil _ _

theorem IsFrontLine.address_eq {address : Int} {line : Line}
    (isFront : IsFrontLine table order opcode address line) : line.address = address := by
  cases isFront with
  | data _ => rfl
  | code _ _ => rfl

/-- A line is read at the front of every image, and its bytes are those that the image begins
with. -/
theorem exists_frontLine
    (narrow : ∀ opcode form, table.form? opcode = some form → form.width ≤ 2) (order : ByteOrder)
    (opcode : UInt8) (rest : List UInt8) (address : Int) :
    ∃ line back, frontLine table order opcode rest address = .ok line ∧
      IsFrontLine table order opcode address line ∧ opcode :: rest = line.raw ++ back := by
  cases found : table.form? opcode with
  | none =>
      exact ⟨_, rest, frontLine_of_no_form found rest address, .data (List.cons_ne_nil _ _), rfl⟩
  | some form =>
      by_cases cut : rest.length < form.width
      · exact ⟨_, [], frontLine_of_cut found cut address, .data (List.cons_ne_nil _ _),
          (List.append_nil _).symm⟩
      · have whole : form.width ≤ rest.length := by omega
        have complete : (rest.take form.width).length = form.width := by
          rw [List.length_take]
          omega
        refine ⟨_, rest.drop form.width,
          frontLine_of_narrow found (narrow opcode form found) whole address,
          .code found complete, ?_⟩
        exact congrArg (opcode :: ·) (List.take_append_drop form.width rest).symm

end FrontLine

/-! ## Lines of the standard table -/

theorem frontLine_of_form (order : ByteOrder) {opcode : UInt8} {form : Form}
    (found : OpcodeTable.standard.form? opcode = some form) {bytes : List UInt8}
    (complete : bytes.length = form.width) (back : List UInt8) (address : Int) :
    frontLine .standard order opcode (bytes ++ back) address =
      .ok (codeLine order form opcode bytes address) := by
  have first : (bytes ++ back).take form.width = bytes := by
    rw [← complete, List.take_left]
  have whole : form.width ≤ (bytes ++ back).length := by
    rw [List.length_append]
    omega
  have narrow := Form.width_le_two (Form.isRegular_of_standard found)
  rw [frontLine_of_narrow found narrow whole, first]

/-- A line that holds data, or an instruction with all of its bytes. -/
inductive StandsFor (order : ByteOrder) : Line → Prop where
  | data {raw : List UInt8} {address : Int} (holdsBytes : raw ≠ []) :
      StandsFor order (dataLine raw address)
  | code {opcode : UInt8} {form : Form} {bytes : List UInt8} {address : Int}
      (found : OpcodeTable.standard.form? opcode = some form)
      (complete : bytes.length = form.width) :
      StandsFor order (codeLine order form opcode bytes address)

theorem width_le_two_of_standard {opcode : UInt8} {form : Form}
    (found : OpcodeTable.standard.form? opcode = some form) : form.width ≤ 2 :=
  Form.width_le_two (Form.isRegular_of_standard found)

theorem standsFor_of_isFrontLine {order : ByteOrder} {opcode : UInt8} {address : Int} {line : Line}
    (isFront : IsFrontLine .standard order opcode address line) : StandsFor order line := by
  cases isFront with
  | data holdsBytes => exact .data holdsBytes
  | code found complete => exact .code found complete

/-! ## Sweeps -/

/-- An image is cut into lines from its front on. -/
inductive Swept (table : OpcodeTable) (order : ByteOrder) : Int → List UInt8 → List Line → Prop where
  | nil {address : Int} : Swept table order address [] []
  | cons {address : Int} {opcode : UInt8} {rest back : List UInt8} {line : Line} {lines : List Line}
      (front : frontLine table order opcode rest address = .ok line)
      (cut : opcode :: rest = line.raw ++ back) (holdsBytes : line.raw ≠ [])
      (later : Swept table order (address + line.raw.length) back lines) :
      Swept table order address (opcode :: rest) (line :: lines)

/-- The items that a limit allows, if there is one. -/
def upTo {Item : Type} : (left : Option Nat) → List Item → List Item
  | none, items => items
  | some number, items => items.take number

theorem sweepFrom_of_swept {table : OpcodeTable} {order : ByteOrder} {address : Int}
    {image : List UInt8} {lines : List Line} (swept : Swept table order address image lines)
    (left : Option Nat) (found : List Line) :
    sweepFrom table order left found address image = .ok (found.reverse ++ upTo left lines) := by
  induction swept generalizing left found with
  | nil =>
      cases left with
      | none => rw [sweepFrom, upTo, List.append_nil]
      | some number => rw [sweepFrom, upTo, List.take_nil, List.append_nil]
  | @cons address opcode rest back line lines front cut holdsBytes _ inductionHypothesis =>
      have remains : rest.drop (line.raw.length - 1) = back := by
        obtain ⟨first, others, isRaw⟩ := List.exists_cons_of_ne_nil holdsBytes
        rw [isRaw, List.cons_append, List.cons.injEq] at cut
        rw [isRaw, List.length_cons, Nat.add_sub_cancel, cut.2, List.drop_left]
      unfold sweepFrom
      cases left with
      | none =>
          simp only [front, remains, Option.map_none, inductionHypothesis]
          simp [upTo]
      | some number =>
          cases number with
          | zero => simp [upTo]
          | succ number =>
              simp only [front, remains, Option.map_some, inductionHypothesis]
              simp [upTo]

theorem sweep_of_swept {table : OpcodeTable} {order : ByteOrder} {address : Int}
    {image : List UInt8} {lines : List Line} (swept : Swept table order address image lines) :
    sweep table order 0 address image = .ok lines :=
  sweepFrom_of_swept swept none []

section Swept

variable {table : OpcodeTable} {order : ByteOrder}

theorem flatMap_raw_of_swept {address : Int} {image : List UInt8} {lines : List Line}
    (swept : Swept table order address image lines) : lines.flatMap Line.raw = image := by
  induction swept with
  | nil => rfl
  | cons _ cut _ _ inductionHypothesis => rw [List.flatMap_cons, inductionHypothesis, cut]

theorem exists_frontLine_of_mem_swept {address : Int} {image : List UInt8} {lines : List Line}
    (swept : Swept table order address image lines) {line : Line} (member : line ∈ lines) :
    ∃ opcode rest place, frontLine table order opcode rest place = .ok line := by
  induction swept with
  | nil => exact absurd member List.not_mem_nil
  | cons front _ _ _ inductionHypothesis =>
      rcases List.mem_cons.1 member with rfl | isLater
      · exact ⟨_, _, _, front⟩
      · exact inductionHypothesis isLater

variable (narrow : ∀ opcode form, table.form? opcode = some form → form.width ≤ 2)
include narrow

/-- Every image can be swept. -/
theorem exists_swept (order : ByteOrder) (address : Int) (image : List UInt8) :
    ∃ lines, Swept table order address image lines := by
  induction measured : image.length using Nat.strongRecOn generalizing address image with
  | ind size inductionHypothesis =>
      cases image with
      | nil => exact ⟨[], .nil⟩
      | cons opcode rest =>
          obtain ⟨line, back, front, isFront, cut⟩ :=
            exists_frontLine narrow order opcode rest address
          have shorter : back.length < size := by
            have rawLength := List.length_pos_iff.2 isFront.raw_ne_nil
            have whole := congrArg List.length cut
            rw [List.length_append, measured] at whole
            omega
          obtain ⟨lines, later⟩ :=
            inductionHypothesis back.length shorter (address + line.raw.length) back rfl
          exact ⟨line :: lines, .cons front cut isFront.raw_ne_nil later⟩

theorem isFrontLine_of_frontLine {opcode : UInt8} {rest : List UInt8} {address : Int} {line : Line}
    (front : frontLine table order opcode rest address = .ok line) :
    IsFrontLine table order opcode address line := by
  obtain ⟨other, _, read, isFront, _⟩ :=
    exists_frontLine narrow order opcode rest address
  cases read.symm.trans front
  exact isFront

end Swept

/-- Every image can be swept with the standard table, and no byte of it is lost. -/
theorem exists_swept_standard (order : ByteOrder) (address : Int) (image : List UInt8) :
    ∃ lines, Swept .standard order address image lines ∧
      (∀ line ∈ lines, StandsFor order line) ∧ lines.flatMap Line.raw = image := by
  have narrow : ∀ opcode form, OpcodeTable.standard.form? opcode = some form → form.width ≤ 2 :=
    fun _ _ => width_le_two_of_standard
  obtain ⟨lines, swept⟩ := exists_swept narrow order address image
  refine ⟨lines, swept, ?_, flatMap_raw_of_swept swept⟩
  intro line member
  obtain ⟨_, _, _, front⟩ := exists_frontLine_of_mem_swept swept member
  exact standsFor_of_isFrontLine (isFrontLine_of_frontLine narrow front)

end Intel8085.Disassembly
