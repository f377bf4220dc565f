import Intel8085.InstructionSet.Table
import Intel8085.Proofs.Storage.Cells

/-!
# Looking things up in an opcode table

Every way of asking a table something is answered by its forms: a mnemonic is known when some form
has it, a token is a literal operand when some form of the mnemonic spells it out, and tokens encode
to the one opcode whose form has their signature.
-/

set_option autoImplicit false

namespace Intel8085.OpcodeTable

open Intel8085.Text

theorem form?_ofNat (table : OpcodeTable) {address : Nat} (below : address < 2 ^ (8 : Nat)) :
    table.form? (UInt8.ofNat address) = table.forms.get address := by
  have small : (UInt8.ofNat address).toNat = address := by
    rw [UInt8.toNat_ofNat']
    omega
  rw [form?, small]

/-- Every cell of a table is that of an opcode, so a search is a search for an opcode. -/
theorem exists_cell_iff (table : OpcodeTable) (test : Form → Bool) :
    (∃ address < 2 ^ (8 : Nat), (table.forms.get address).any test = true) ↔
      ∃ opcode form, table.form? opcode = some form ∧ test form = true := by
  constructor
  · rintro ⟨address, below, passes⟩
    obtain ⟨form, found, holds⟩ := (Option.any_eq_true _ _).1 passes
    exact ⟨UInt8.ofNat address, form, (form?_ofNat table below).trans found, holds⟩
  · rintro ⟨opcode, form, found, holds⟩
    refine ⟨opcode.toNat, opcode.toNat_lt, ?_⟩
    rw [form?] at found
    rw [found]
    exact holds

theorem hasMnemonic_iff (table : OpcodeTable) (mnemonic : String) :
    table.hasMnemonic mnemonic = true ↔
      ∃ opcode form, table.form? opcode = some form ∧ form.mnemonic = mnemonic := by
  rw [hasMnemonic, Bank.isSome_find?_iff, exists_cell_iff]
  simp only [beq_iff_eq]

/-! ## Forms of a mnemonic -/

theorem mem_items_iff (table : OpcodeTable) (opcode : Nat) (form : Form) :
    (opcode, form) ∈ table.items ↔ opcode < 2 ^ (8 : Nat) ∧ table.forms.get opcode = some form := by
  rw [items, Bank.toList_eq_map_get, List.mem_filterMap]
  constructor
  · rintro ⟨⟨form?, position⟩, member, shape⟩
    rw [List.mem_zipIdx_iff_getElem?] at member
    obtain ⟨other, cell, pairing⟩ := Option.map_eq_some_iff.1 shape
    cases pairing
    rw [List.getElem?_map, Option.map_eq_some_iff] at member
    obtain ⟨address, inRange, content⟩ := member
    obtain ⟨below, rfl⟩ : opcode < 2 ^ (8 : Nat) ∧ opcode = address := by
      rw [List.getElem?_eq_some_iff] at inRange
      obtain ⟨bound, same⟩ := inRange
      rw [List.length_range] at bound
      rw [List.getElem_range] at same
      exact ⟨bound, same⟩
    exact ⟨below, content.trans cell⟩
  · rintro ⟨below, cell⟩
    refine ⟨(some form, opcode), ?_, rfl⟩
    rw [List.mem_zipIdx_iff_getElem?, List.getElem?_map, List.getElem?_range below]
    exact congrArg some cell

theorem mem_literalOperands_iff (table : OpcodeTable) (mnemonic token : String) :
    token ∈ table.literalOperands mnemonic ↔
      ∃ opcode form, table.form? opcode = some form ∧ form.mnemonic = upperCase mnemonic ∧
        token ∈ form.literals := by
  rw [literalOperands, List.mem_eraseDups, List.mem_flatMap]
  constructor
  · rintro ⟨⟨opcode, form⟩, member, spelled⟩
    obtain ⟨listed, named⟩ := List.mem_filter.1 member
    obtain ⟨below, cell⟩ := (mem_items_iff table opcode form).1 listed
    exact ⟨UInt8.ofNat opcode, form, (form?_ofNat table below).trans cell, beq_iff_eq.1 named, spelled⟩
  · rintro ⟨opcode, form, found, named, spelled⟩
    refine ⟨(opcode.toNat, form), List.mem_filter.2 ⟨?_, beq_iff_eq.2 named⟩, spelled⟩
    exact (mem_items_iff table opcode.toNat form).2 ⟨opcode.toNat_lt, found⟩

/-! ## Encoding -/

theorem form?_of_findSignature {table : OpcodeTable} {signature : List String} {opcode : UInt8}
    (found : findSignature table.forms signature = some opcode) :
    ∃ form, table.form? opcode = some form ∧ form.signature = signature := by
  obtain ⟨address, search, rfl⟩ := Option.map_eq_some_iff.1 found
  obtain ⟨below, passes⟩ := Bank.passes_of_find?_eq_some search
  obtain ⟨form, cell, same⟩ := (Option.any_eq_true _ _).1 passes
  exact ⟨form, (form?_ofNat table below).trans cell, beq_iff_eq.1 same⟩

theorem findSignature_eq_some_iff (table : OpcodeTable) (signature : List String) (opcode : UInt8) :
    findSignature table.forms signature = some opcode ↔
      ∃ form, table.form? opcode = some form ∧ form.signature = signature := by
  constructor
  · exact form?_of_findSignature
  · rintro ⟨form, cell, same⟩
    cases found : findSignature table.forms signature with
    | none => exact absurd same (signature_ne_of_findSignature_eq_none found cell)
    | some other =>
        obtain ⟨otherForm, otherCell, otherSame⟩ := form?_of_findSignature found
        have equal := table.distinct other opcode otherForm form otherCell cell
          (otherSame.trans same.symm)
        rw [equal]

/-- Tokens encode to an opcode exactly when its form has their signature. -/
theorem encode_eq_some_iff (table : OpcodeTable) (tokens : List String) (opcode : UInt8) :
    table.encode tokens = some opcode ↔
      ∃ form, table.form? opcode = some form ∧
        form.signature = signatureOf (tokens.map upperCase) :=
  findSignature_eq_some_iff table _ opcode

end Intel8085.OpcodeTable
