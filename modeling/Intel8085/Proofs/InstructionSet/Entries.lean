import Intel8085.Proofs.FirstFailure
import Intel8085.Proofs.InstructionSet.Lookup
import Intel8085.Proofs.Text.Capitals

/-!
# Tables of entries

A list of entries makes a table exactly when each is an opcode with a pattern that is not empty, and
no two share an opcode or a signature (`ofEntries_eq_ok_iff`).  The table is then the list read in
both directions: an opcode has the tokens of its entry, and tokens have the opcode of the entry with
their signature (`ofEntries_readsBothWays`).
-/

set_option autoImplicit false

namespace Intel8085

open Intel8085.Text

/-! ## Entries -/

namespace OpcodeTable.Entry

/-- The pattern of an entry in capitals. -/
def tokens (entry : Entry) : List String :=
  entry.pattern.map upperCase

def signature (entry : Entry) : List String :=
  signatureOf entry.tokens

def IsByte (entry : Entry) : Prop :=
  0 ≤ entry.opcode ∧ entry.opcode ≤ 0xFF

/-- The form has the tokens and the timing of the entry. -/
def Describes (entry : Entry) (form : Form) : Prop :=
  form.tokens = entry.tokens ∧ form.cycles = entry.cycles ∧ form.states = entry.states

theorem describes_ofPattern {entry : Entry} {mnemonic : String} {operands : List String}
    (split : entry.tokens = mnemonic :: operands) :
    entry.Describes (.ofPattern mnemonic operands entry.cycles entry.states) :=
  ⟨split.symm, rfl, rfl⟩

/-- A form is told by its tokens and its timing. -/
theorem describes_unique {entry : Entry} {first second : Form} (describes : entry.Describes first)
    (describesToo : entry.Describes second) : first = second := by
  obtain ⟨mnemonic, operands, cycles, states, _, _, _, rfl, rfl, rfl⟩ := first
  obtain ⟨otherMnemonic, otherOperands, otherCycles, otherStates, _, _, _, rfl, rfl, rfl⟩ := second
  obtain ⟨tokens, rfl, rfl⟩ := describes
  obtain ⟨otherTokens, rfl, rfl⟩ := describesToo
  obtain ⟨rfl, rfl⟩ := List.cons.inj (tokens.trans otherTokens.symm)
  rfl

theorem signature_of_describes {entry : Entry} {form : Form} (describes : entry.Describes form) :
    form.signature = entry.signature := by
  rw [form.signature_eq, signature, ← describes.1, Form.tokens]

theorem toNat_byteOf_opcode {entry : Entry} (isByte : entry.IsByte) :
    ((byteOf entry.opcode).toNat : Int) = entry.opcode := by
  obtain ⟨low, high⟩ := isByte
  rw [toNat_byteOf]
  omega

end OpcodeTable.Entry

namespace OpcodeTable

/-! ## Adding an entry -/

theorem form?_insert_same {table : OpcodeTable} {opcode : UInt8} {form : Form}
    (fresh : findSignature table.forms form.signature = none) :
    (table.insert opcode form fresh).form? opcode = some form :=
  Bank.get_set_same table.forms opcode.toNat (some form)

theorem form?_insert_other {table : OpcodeTable} {opcode other : UInt8} {form : Form}
    (fresh : findSignature table.forms form.signature = none) (different : other ≠ opcode) :
    (table.insert opcode form fresh).form? other = table.form? other := by
  apply Bank.get_set_other
  have bound := opcode.toNat_lt
  have otherBound := other.toNat_lt
  have unequal : other.toNat ≠ opcode.toNat := fun same => different (UInt8.toNat_inj.1 same)
  omega

/-- What adding an entry has come to. -/
theorem add_eq_ok {table next : OpcodeTable} {entry : Entry} (success : table.add entry = .ok next) :
    entry.IsByte ∧ entry.pattern ≠ [] ∧ table.form? (byteOf entry.opcode) = none ∧
      ∃ form, entry.Describes form ∧
        ∃ fresh : findSignature table.forms form.signature = none,
          next = table.insert (byteOf entry.opcode) form fresh := by
  unfold add at success
  split at success
  · rename_i isByte
    simp only at success
    split at success
    · cases success
    · rename_i mnemonic operands split
      have nonempty : entry.pattern ≠ [] := by
        intro empty
        rw [empty] at split
        cases split
      split at success
      · cases success
      · rename_i undefined
        split at success
        · cases success
        · rename_i fresh
          cases success
          exact ⟨isByte, nonempty, Option.not_isSome_iff_eq_none.1 undefined, _,
            Entry.describes_ofPattern split, fresh, rfl⟩
  · cases success

/-- The opcode that the entry at fault has. -/
def EntryError.opcode : EntryError → Int
  | .notAByte opcode => opcode
  | .emptyPattern opcode => opcode.toNat
  | .definedTwice opcode => opcode.toNat
  | .sharedSignature _ opcode _ => opcode.toNat

theorem add_eq_error {table : OpcodeTable} {entry : Entry} {error : EntryError}
    (failure : table.add entry = .error error) :
    error.opcode = entry.opcode ∧
      (¬ entry.IsByte ∨ entry.pattern = [] ∨
        (∃ form, table.form? (byteOf entry.opcode) = some form) ∨
        ∃ opcode form, table.form? opcode = some form ∧ form.signature = entry.signature) := by
  unfold add at failure
  split at failure
  · rename_i isByte
    have same := Entry.toNat_byteOf_opcode isByte
    simp only at failure
    split at failure
    · rename_i empty
      cases failure
      exact ⟨same, Or.inr (Or.inl (List.map_eq_nil_iff.1 empty))⟩
    · rename_i mnemonic operands split
      split at failure
      · rename_i defined
        cases failure
        exact ⟨same, Or.inr (Or.inr (Or.inl (Option.isSome_iff_exists.1 defined)))⟩
      · split at failure
        · rename_i earlier shared
          cases failure
          obtain ⟨form, found, sameSignature⟩ := form?_of_findSignature shared
          refine ⟨same, Or.inr (Or.inr (Or.inr ⟨earlier, form, found, ?_⟩))⟩
          rw [sameSignature]
          exact Entry.signature_of_describes (Entry.describes_ofPattern split)
        · cases failure
  · rename_i noByte
    cases failure
    exact ⟨rfl, Or.inl noByte⟩

/-! ## Adding entries one by one -/

/-- An entry is none of an opcode with a pattern, or shares its opcode or its signature with an
earlier one. -/
def Entry.BreaksTableRule (earlier : List Entry) (entry : Entry) : Prop :=
  ¬ entry.IsByte ∨ entry.pattern = [] ∨ entry.opcode ∈ earlier.map Entry.opcode ∨
    entry.signature ∈ earlier.map Entry.signature

/-- The table has a form for each of the entries, and no others. -/
structure Holds (earlier : List Entry) (table : OpcodeTable) : Prop where
  sound : ∀ opcode form, table.form? opcode = some form →
    ∃ entry ∈ earlier, entry.opcode = opcode.toNat ∧ entry.Describes form
  complete : ∀ entry ∈ earlier, ∃ opcode form, table.form? opcode = some form ∧
    entry.opcode = opcode.toNat ∧ entry.Describes form

theorem holds_empty : Holds [] empty where
  sound := by
    intro opcode form found
    have nothing : empty.form? opcode = none := Bank.get_filled none 8 opcode.toNat
    rw [nothing] at found
    cases found
  complete := fun _ member => absurd member List.not_mem_nil

section Holds

variable {earlier : List Entry} {table : OpcodeTable} (holds : Holds earlier table)
include holds

theorem mem_opcodes_of_holds {entry : Entry} (isByte : entry.IsByte) :
    entry.opcode ∈ earlier.map Entry.opcode ↔
      ∃ form, table.form? (byteOf entry.opcode) = some form := by
  rw [List.mem_map]
  constructor
  · rintro ⟨other, member, same⟩
    obtain ⟨opcode, form, found, isOpcode, _⟩ := holds.complete other member
    rw [← same, isOpcode, byteOf_toNat]
    exact ⟨form, found⟩
  · rintro ⟨form, found⟩
    obtain ⟨other, member, same, _⟩ := holds.sound _ form found
    rw [Entry.toNat_byteOf_opcode isByte] at same
    exact ⟨other, member, same⟩

theorem mem_signatures_of_holds {signature : List String} :
    signature ∈ earlier.map Entry.signature ↔
      ∃ opcode form, table.form? opcode = some form ∧ form.signature = signature := by
  rw [List.mem_map]
  constructor
  · rintro ⟨other, member, rfl⟩
    obtain ⟨opcode, form, found, _, describes⟩ := holds.complete other member
    exact ⟨opcode, form, found, Entry.signature_of_describes describes⟩
  · rintro ⟨opcode, form, found, rfl⟩
    obtain ⟨other, member, _, describes⟩ := holds.sound opcode form found
    exact ⟨other, member, (Entry.signature_of_describes describes).symm⟩

theorem holds_insert {entry : Entry} {form : Form} (isByte : entry.IsByte)
    (undefined : table.form? (byteOf entry.opcode) = none) (describes : entry.Describes form)
    (fresh : findSignature table.forms form.signature = none) :
    Holds (earlier ++ [entry]) (table.insert (byteOf entry.opcode) form fresh) where
  sound := by
    intro opcode other found
    by_cases same : opcode = byteOf entry.opcode
    · subst same
      rw [form?_insert_same fresh] at found
      cases found
      exact ⟨entry, List.mem_append_right _ List.mem_cons_self,
        (Entry.toNat_byteOf_opcode isByte).symm, describes⟩
    · rw [form?_insert_other fresh same] at found
      obtain ⟨listed, member, rest⟩ := holds.sound opcode other found
      exact ⟨listed, List.mem_append_left _ member, rest⟩
  complete := by
    intro listed member
    rcases List.mem_append.1 member with isEarlier | isEntry
    · obtain ⟨opcode, other, found, rest⟩ := holds.complete listed isEarlier
      refine ⟨opcode, other, ?_, rest⟩
      have different : opcode ≠ byteOf entry.opcode := by
        rintro rfl
        rw [undefined] at found
        cases found
      rw [form?_insert_other fresh different]
      exact found
    · cases List.mem_singleton.1 isEntry
      exact ⟨_, form, form?_insert_same fresh, (Entry.toNat_byteOf_opcode isByte).symm, describes⟩

end Holds

theorem continues_add (entries : List Entry) :
    Continues entries add Holds Entry.BreaksTableRule := by
  intro earlier entry table next _ holds success
  obtain ⟨isByte, nonempty, undefined, form, describes, fresh, rfl⟩ := add_eq_ok success
  refine ⟨?_, holds_insert holds isByte undefined describes fresh⟩
  rintro (noByte | isEmpty | repeated | shared)
  · exact noByte isByte
  · exact nonempty isEmpty
  · obtain ⟨other, found⟩ := (mem_opcodes_of_holds holds isByte).1 repeated
    rw [undefined] at found
    cases found
  · obtain ⟨opcode, other, found, same⟩ := (mem_signatures_of_holds holds).1 shared
    rw [← Entry.signature_of_describes describes] at same
    exact signature_ne_of_findSignature_eq_none fresh found same

theorem stops_add (entries : List Entry) :
    Stops entries add Holds Entry.BreaksTableRule
      fun entry error => error.opcode = entry.opcode := by
  intro earlier entry table error _ holds failure
  obtain ⟨named, noByte | isEmpty | repeated | shared⟩ := add_eq_error failure
  · exact ⟨Or.inl noByte, named⟩
  · exact ⟨Or.inr (Or.inl isEmpty), named⟩
  · refine ⟨?_, named⟩
    by_cases isByte : entry.IsByte
    · exact Or.inr (Or.inr (Or.inl ((mem_opcodes_of_holds holds isByte).2 repeated)))
    · exact Or.inl isByte
  · exact ⟨Or.inr (Or.inr (Or.inr ((mem_signatures_of_holds holds).2 shared))), named⟩

/-! ## Lists of entries -/

/-- Every entry is an opcode with a pattern, and no two have an opcode or a signature in common. -/
structure MakesTable (entries : List Entry) : Prop where
  bytes : ∀ entry ∈ entries, 0 ≤ entry.opcode ∧ entry.opcode ≤ 0xFF
  patterns : ∀ entry ∈ entries, entry.pattern ≠ []
  opcodes : (entries.map Entry.opcode).Nodup
  signatures : (entries.map Entry.signature).Nodup

theorem noneFails_breaksTableRule_iff {entries : List Entry} :
    NoneFails Entry.BreaksTableRule entries ↔ MakesTable entries := by
  have apart : NoneFails Entry.BreaksTableRule entries ↔
      (∀ entry ∈ entries, ¬ ¬ entry.IsByte) ∧ (∀ entry ∈ entries, ¬ entry.pattern = []) ∧
        (entries.map Entry.opcode).Nodup ∧ (entries.map Entry.signature).Nodup := by
    rw [← noneFails_iff_forall, ← noneFails_iff_forall, ← noneFails_repeats_iff,
      ← noneFails_repeats_iff, ← noneFails_or_iff, ← noneFails_or_iff, ← noneFails_or_iff]
    rfl
  rw [apart]
  constructor
  · rintro ⟨bytes, patterns, opcodes, signatures⟩
    exact ⟨fun entry member => not_not.1 (bytes entry member), patterns, opcodes, signatures⟩
  · rintro ⟨bytes, patterns, opcodes, signatures⟩
    exact ⟨fun entry member => not_not.2 (bytes entry member), patterns, opcodes, signatures⟩

theorem holds_of_ofEntries {entries : List Entry} {table : OpcodeTable}
    (built : ofEntries entries = .ok table) : MakesTable entries ∧ Holds entries table := by
  obtain ⟨none, holds⟩ := noneFails_of_foldlM (continues_add entries) holds_empty built
  exact ⟨noneFails_breaksTableRule_iff.1 none, holds⟩

/-- A list that makes no table is refused for the first entry that does not fit. -/
theorem first_of_ofEntries {entries : List Entry} {error : EntryError}
    (refused : ofEntries entries = .error error) :
    ∃ earlier entry, IsFirst Entry.BreaksTableRule entries earlier entry ∧
      error.opcode = entry.opcode :=
  first_of_foldlM (continues_add entries) holds_empty (stops_add entries) refused

theorem ofEntries_eq_ok_iff {entries : List Entry} :
    (∃ table, ofEntries entries = .ok table) ↔ MakesTable entries := by
  constructor
  · rintro ⟨table, built⟩
    exact (holds_of_ofEntries built).1
  · intro makes
    cases built : ofEntries entries with
    | ok table => exact ⟨table, rfl⟩
    | error error =>
        obtain ⟨earlier, entry, first, _⟩ := first_of_ofEntries built
        exact absurd (noneFails_breaksTableRule_iff.2 makes) first.not_noneFails

/-! ## Reading a table -/

theorem decode_eq_ok_iff {table : OpcodeTable} {opcode : Int} {form : Form} :
    table.decode opcode = .ok form ↔
      ∃ byte : UInt8, opcode = byte.toNat ∧ table.form? byte = some form := by
  unfold decode
  constructor
  · intro success
    split at success
    · rename_i isByte
      split at success
      · rename_i other found
        cases success
        refine ⟨byteOf opcode, ?_, found⟩
        rw [toNat_byteOf]
        omega
      · cases success
    · cases success
  · rintro ⟨byte, rfl, found⟩
    have bound := byte.toNat_lt
    have isByte : 0 ≤ (byte.toNat : Int) ∧ (byte.toNat : Int) ≤ 0xFF := by omega
    rw [if_pos isByte, byteOf_toNat, found]

theorem widthOf_eq_count (operands : List String) :
    widthOf operands = operands.count Token.byte + 2 * operands.count Token.word := by
  induction operands with
  | nil => rfl
  | cons token others inductionHypothesis =>
      have first : Token.width token =
          (if token == Token.byte then 1 else 0) + 2 * if token == Token.word then 1 else 0 := by
        have different : (Token.byte == Token.word) = false := by decide
        rw [Token.width]
        split
        · rename_i isByte
          rw [beq_iff_eq.1 isByte, different]
          rfl
        · split <;> rfl
      rw [widthOf, List.map_cons, List.sum_cons, ← widthOf, inductionHypothesis, first,
        List.count_cons, List.count_cons]
      omega

/-- The table gives the entries by opcode and by tokens, and the operands of a form their width. -/
structure ReadsBothWays (entries : List Entry) (table : OpcodeTable) : Prop where
  decode_iff : ∀ opcode form, table.decode opcode = .ok form ↔
    ∃ entry ∈ entries, entry.opcode = opcode ∧ entry.Describes form
  encode_decode : ∀ (opcode : UInt8) form, table.decode opcode.toNat = .ok form →
    table.encode form.tokens = some opcode
  encode_iff : ∀ tokens (opcode : UInt8), table.encode tokens = some opcode ↔
    ∃ form, table.decode opcode.toNat = .ok form ∧
      signatureOf (tokens.map upperCase) = signatureOf form.tokens
  encode_none_iff : ∀ tokens, table.encode tokens = none ↔
    ∀ entry ∈ entries, entry.signature ≠ signatureOf (tokens.map upperCase)
  width : ∀ opcode form, table.decode opcode = .ok form →
    form.width = form.operands.count Token.byte + 2 * form.operands.count Token.word

section Reading

variable {entries : List Entry} {table : OpcodeTable} (holds : Holds entries table)
include holds

theorem form?_of_entry {entry : Entry} {opcode : UInt8} {form : Form} (member : entry ∈ entries)
    (isOpcode : entry.opcode = opcode.toNat) (describes : entry.Describes form) :
    table.form? opcode = some form := by
  obtain ⟨other, otherForm, found, isOther, describesToo⟩ := holds.complete entry member
  have same : opcode = other := by
    apply UInt8.toNat_inj.1
    omega
  rw [same, found, Entry.describes_unique describes describesToo]

theorem decode_iff_of_holds (opcode : Int) (form : Form) :
    table.decode opcode = .ok form ↔
      ∃ entry ∈ entries, entry.opcode = opcode ∧ entry.Describes form := by
  rw [decode_eq_ok_iff]
  constructor
  · rintro ⟨byte, rfl, found⟩
    exact holds.sound byte form found
  · rintro ⟨entry, member, rfl, describes⟩
    obtain ⟨byte, _, _, isOpcode, _⟩ := holds.complete entry member
    exact ⟨byte, isOpcode, form?_of_entry holds member isOpcode describes⟩

theorem map_upperCase_tokens {opcode : UInt8} {form : Form} (found : table.form? opcode = some form) :
    form.tokens.map upperCase = form.tokens := by
  obtain ⟨entry, _, _, tokens, _⟩ := holds.sound opcode form found
  rw [tokens, Entry.tokens, List.map_map]
  apply List.map_congr_left
  intro token _
  exact upperCase_upperCase token

theorem readsBothWays_of_holds : ReadsBothWays entries table where
  decode_iff := decode_iff_of_holds holds
  encode_decode := by
    intro opcode form decoded
    obtain ⟨byte, same, found⟩ := decode_eq_ok_iff.1 decoded
    obtain rfl : opcode = byte := UInt8.toNat_inj.1 (by omega)
    rw [encode_eq_some_iff, map_upperCase_tokens holds found]
    exact ⟨form, found, form.signature_eq⟩
  encode_iff := by
    intro tokens opcode
    rw [encode_eq_some_iff]
    constructor
    · rintro ⟨form, found, same⟩
      exact ⟨form, decode_eq_ok_iff.2 ⟨opcode, rfl, found⟩, same.symm.trans form.signature_eq⟩
    · rintro ⟨form, decoded, same⟩
      obtain ⟨byte, sameNumber, found⟩ := decode_eq_ok_iff.1 decoded
      obtain rfl : opcode = byte := UInt8.toNat_inj.1 (by omega)
      exact ⟨form, found, form.signature_eq.trans same.symm⟩
  encode_none_iff := by
    intro tokens
    have missing : table.encode tokens = none ↔
        signatureOf (tokens.map upperCase) ∉ entries.map Entry.signature := by
      rw [Option.eq_none_iff_forall_ne_some, mem_signatures_of_holds holds]
      simp only [ne_eq, encode_eq_some_iff, not_exists]
    rw [missing, List.mem_map]
    simp only [not_exists, not_and, ne_eq]
  width := by
    intro opcode form _
    rw [form.width_eq, widthOf_eq_count]

end Reading

/-- A list makes a table exactly when its entries are opcodes with patterns that differ from each
other, and is refused otherwise; the table gives the list in both directions. -/
theorem ofEntries_readsBothWays (entries : List Entry) :
    ((∃ table, ofEntries entries = .ok table) ↔ MakesTable entries) ∧
      ((∃ error, ofEntries entries = .error error) ↔ ¬ MakesTable entries) ∧
      ∀ table, ofEntries entries = .ok table → ReadsBothWays entries table := by
  refine ⟨ofEntries_eq_ok_iff, ?_, ?_⟩
  · rw [← ofEntries_eq_ok_iff]
    cases ofEntries entries with
    | ok table => simp
    | error error => simp
  · intro table built
    exact readsBothWays_of_holds (holds_of_ofEntries built).2

/-- Entries in small letters, of which the last two have all their immediate bytes in one operand or
in two. -/
def smallEntries : List Entry :=
  [⟨0x40, ["mov", "b", "b"], 1, 4⟩, ⟨0x22, ["lda", "d16"], 4, 13⟩, ⟨0x80, ["pair", "d8", "D8"], 3, 10⟩]

theorem ofEntries_readsBothWays_of_smallEntries :
    ∃ table, ofEntries smallEntries = .ok table ∧ ReadsBothWays smallEntries table ∧
      table.encode ["Pair", "data", "D16"] = some 0x80 := by
  have makes : MakesTable smallEntries := by
    constructor <;> decide
  obtain ⟨table, built⟩ := (ofEntries_readsBothWays smallEntries).1.2 makes
  have reads := (ofEntries_readsBothWays smallEntries).2.2 table built
  refine ⟨table, built, reads, (reads.encode_iff _ _).2 ?_⟩
  refine ⟨.ofPattern "PAIR" ["D8", "D8"] 3 10, (reads.decode_iff _ _).2 ?_, by decide⟩
  exact ⟨⟨0x80, ["pair", "d8", "D8"], 3, 10⟩, by decide, rfl, by decide, rfl, rfl⟩

end OpcodeTable

end Intel8085
