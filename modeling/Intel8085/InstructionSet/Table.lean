import Intel8085.InstructionSet.Form
import Intel8085.Machine.Fault
import Intel8085.Storage.Bank
import Intel8085.Text.Capital

/-!
# Opcode tables

A table gives every opcode at most one form, and no two opcodes forms of one signature.  So the
table is read in both directions: an opcode has its form, and the tokens of a statement have the one
opcode whose form they match.  The processor, the assembler and the disassembler share a table.

`OpcodeTable.ofEntries` builds a table or says what is wrong with the first entry that does not
fit.
-/

set_option autoImplicit false

namespace Intel8085

open Intel8085.Text

/-- Forms by opcode, where no two opcodes have forms of one signature. -/
structure OpcodeTable where
  forms : Bank (Option Form) 8
  distinct : ∀ (first second : UInt8) (form other : Form),
    forms.get first.toNat = some form → forms.get second.toNat = some other →
      form.signature = other.signature → first = second

namespace OpcodeTable

def form? (table : OpcodeTable) (opcode : UInt8) : Option Form :=
  table.forms.get opcode.toNat

def decode (table : OpcodeTable) (opcode : Int) : Except Fault Form :=
  if 0 ≤ opcode ∧ opcode ≤ 0xFF then
    match table.form? (byteOf opcode) with
    | some form => .ok form
    | none => .error (.unknownOpcode opcode none)
  else .error (.unknownOpcode opcode none)

def findSignature (forms : Bank (Option Form) 8) (signature : List String) : Option UInt8 :=
  (forms.find? fun form? => form?.any fun form => form.signature == signature).map UInt8.ofNat

/-- The opcode whose form the tokens match, where a placeholder may stand for any other. -/
def encode (table : OpcodeTable) (tokens : List String) : Option UInt8 :=
  findSignature table.forms (signatureOf (tokens.map upperCase))

def items (table : OpcodeTable) : List (Nat × Form) :=
  table.forms.toList.zipIdx.filterMap fun (form?, opcode) => form?.map fun form => (opcode, form)

def formsOf (table : OpcodeTable) (mnemonic : String) : List (Nat × Form) :=
  table.items.filter fun item => item.2.mnemonic == mnemonic

def hasMnemonic (table : OpcodeTable) (mnemonic : String) : Bool :=
  (table.forms.find? fun form? => form?.any fun form => form.mnemonic == mnemonic).isSome

def mnemonics (table : OpcodeTable) : List String :=
  (table.items.map fun item => item.2.mnemonic).eraseDups

/-- The operand tokens that some form of a mnemonic spells out. -/
def literalOperands (table : OpcodeTable) (mnemonic : String) : List String :=
  ((table.formsOf (upperCase mnemonic)).flatMap fun item => item.2.literals).eraseDups

def empty : OpcodeTable where
  forms := .filled none 8
  distinct := by
    intro first second form other found
    rw [Bank.get_filled] at found
    exact absurd found (by simp)

structure Entry where
  opcode : Int
  pattern : List String
  cycles : Int
  states : Int
  deriving DecidableEq, Repr

inductive EntryError where
  | notAByte (opcode : Int)
  | emptyPattern (opcode : UInt8)
  | definedTwice (opcode : UInt8)
  | sharedSignature (earlier opcode : UInt8) (signature : List String)
  deriving DecidableEq, Repr

def EntryError.message : EntryError → String
  | .notAByte opcode => "Opcode " ++ markedHex opcode ++ " is not a byte"
  | .emptyPattern opcode => "Opcode $" ++ hexByte opcode ++ " has an empty pattern"
  | .definedTwice opcode => "Opcode $" ++ hexByte opcode ++ " defined twice"
  | .sharedSignature earlier opcode signature =>
      "Opcodes $" ++ hexByte earlier ++ " and $" ++ hexByte opcode ++ " share signature " ++
        " ".intercalate signature

theorem signature_ne_of_findSignature_eq_none {forms : Bank (Option Form) 8}
    {signature : List String} (missing : findSignature forms signature = none) {opcode : UInt8}
    {form : Form} (found : forms.get opcode.toNat = some form) : form.signature ≠ signature := by
  intro same
  have absent := Bank.fails_of_find?_eq_none (Option.map_eq_none_iff.1 missing) opcode.toNat
  simp [found, same] at absent

/-- The table with a form for one more opcode, whose signature is new. -/
def insert (table : OpcodeTable) (opcode : UInt8) (form : Form)
    (fresh : findSignature table.forms form.signature = none) : OpcodeTable where
  forms := table.forms.set opcode.toNat (some form)
  distinct := by
    have elsewhere : ∀ other : UInt8, other ≠ opcode →
        (table.forms.set opcode.toNat (some form)).get other.toNat = table.forms.get other.toNat := by
      intro other different
      apply Bank.get_set_other
      have otherBound := other.toNat_lt
      have bound := opcode.toNat_lt
      have unequal : other.toNat ≠ opcode.toNat := fun same => different (UInt8.toNat_inj.1 same)
      omega
    intro first second firstForm secondForm firstFound secondFound same
    by_cases atFirst : first = opcode
    · by_cases atSecond : second = opcode
      · rw [atFirst, atSecond]
      · rw [atFirst, Bank.get_set_same] at firstFound
        rw [elsewhere second atSecond] at secondFound
        have inserted := Option.some.inj firstFound
        exact absurd (same.symm.trans (congrArg Form.signature inserted.symm))
          (signature_ne_of_findSignature_eq_none fresh secondFound)
    · by_cases atSecond : second = opcode
      · rw [atSecond, Bank.get_set_same] at secondFound
        rw [elsewhere first atFirst] at firstFound
        have inserted := Option.some.inj secondFound
        exact absurd (same.trans (congrArg Form.signature inserted.symm))
          (signature_ne_of_findSignature_eq_none fresh firstFound)
      · rw [elsewhere first atFirst] at firstFound
        rw [elsewhere second atSecond] at secondFound
        exact table.distinct first second firstForm secondForm firstFound secondFound same

/-- The table with one more entry, whose tokens are put in capitals. -/
def add (table : OpcodeTable) (entry : Entry) : Except EntryError OpcodeTable :=
  if 0 ≤ entry.opcode ∧ entry.opcode ≤ 0xFF then
    let opcode := byteOf entry.opcode
    match entry.pattern.map upperCase with
    | [] => .error (.emptyPattern opcode)
    | mnemonic :: operands =>
        if (table.form? opcode).isSome then .error (.definedTwice opcode)
        else
          let form := Form.ofPattern mnemonic operands entry.cycles entry.states
          match found : findSignature table.forms form.signature with
          | some earlier => .error (.sharedSignature earlier opcode form.signature)
          | none => .ok (table.insert opcode form found)
  else .error (.notAByte entry.opcode)

def ofEntries (entries : List Entry) : Except EntryError OpcodeTable :=
  entries.foldlM add empty

end OpcodeTable

end Intel8085
