import Intel8085.Proofs.Session.Faults

/-!
# Fetching an instruction

An instruction is fetched whole or not at all: either its opcode has no form, or memory ends before
its immediate bytes do, or the immediate is that of the bytes behind the opcode.  No instruction is
read around the end of memory.
-/

set_option autoImplicit false

namespace Intel8085.Memory

/-- The word that the two bytes behind an address stand for. -/
def wordBehind (memory : Memory) (order : ByteOrder) (address : UInt16) : UInt16 :=
  order.joinWord [memory.read (address + 1), memory.read (address + 2)]

/-- The value of so many immediate bytes behind an address: there is one for one byte and for
two. -/
def valueBehind (memory : Memory) (order : ByteOrder) (address : UInt16) (width : Nat) :
    Option UInt16 :=
  match width with
  | 1 => some (joinBytes 0 (memory.read (address + 1)))
  | 2 => some (memory.wordBehind order address)
  | _ => none

variable {memory : Memory} {order : ByteOrder} {address : UInt16} {width : Nat}

theorem read?_of_fits {number : Int} {offset : UInt16}
    (fits : address.toNat + offset.toNat < size)
    (isOffset : number = (address.toNat : Int) + offset.toNat) :
    memory.read? number = .ok (memory.read (address + offset)) := by
  have whole : size = 65536 := rfl
  have inside : 0 ≤ number ∧ number ≤ 0xFFFF := by omega
  have same : wordOf number = address + offset := by
    apply UInt16.toNat_inj.1
    rw [toNat_wordOf, UInt16.toNat_add]
    omega
  rw [read?, Memory.address, if_pos inside, same]
  rfl

theorem read?_first (fits : address.toNat + 1 < size) :
    memory.read? ((address.toNat : Int) + 1) = .ok (memory.read (address + 1)) := by
  have one : (1 : UInt16).toNat = 1 := rfl
  exact read?_of_fits (by omega) (by omega)

theorem read?_second (fits : address.toNat + 2 < size) :
    memory.read? ((address.toNat : Int) + 2) = .ok (memory.read (address + 2)) := by
  have two : (2 : UInt16).toNat = 2 := rfl
  exact read?_of_fits (by omega) (by omega)

theorem read?_of_end {number : Int} (atEnd : number = size) :
    memory.read? number = .error (.addressOutOfBounds size) := by
  subst atEnd
  rfl

theorem immediate_of_fits (fits : address.toNat + width < size) :
    memory.immediate order address width = .ok (memory.valueBehind order address width) := by
  match width with
  | 0 => rfl
  | 1 =>
      simp only [immediate, read?_first fits]
      rfl
  | 2 =>
      simp only [immediate, read?_first (Nat.lt_of_succ_lt fits), read?_second fits]
      rfl
  | _ + 3 => rfl

/-- Of two immediate bytes the first or the second is the one behind the end of memory. -/
theorem immediate_of_cut (narrow : width ≤ 2) (cut : size ≤ address.toNat + width) :
    memory.immediate order address width = .error (.addressOutOfBounds size) := by
  have bound := address.toNat_lt
  have whole : size = 65536 := rfl
  by_cases last : address.toNat + 1 = size
  · have refused : memory.read? ((address.toNat : Int) + 1) =
        .error (.addressOutOfBounds size) := read?_of_end (by omega)
    obtain rfl | rfl : width = 1 ∨ width = 2 := by omega
    · simp only [immediate, refused]
      rfl
    · simp only [immediate, refused]
      rfl
  · obtain rfl : width = 2 := by omega
    have refused : memory.read? ((address.toNat : Int) + 2) =
        .error (.addressOutOfBounds size) := read?_of_end (by omega)
    simp only [immediate, read?_first (by omega : address.toNat + 1 < size), refused]
    rfl

/-! ## Instructions -/

variable {setup : Setup} {form : Form}

theorem fetch_of_no_form (missing : setup.table.form? (memory.read address) = none) :
    memory.fetch setup address =
      .error (.unknownOpcode (memory.read address).toNat (some address)) := by
  simp only [fetch, missing]

theorem fetch_of_cut (found : setup.table.form? (memory.read address) = some form)
    (narrow : form.width ≤ 2) (cut : size < address.toNat + form.length) :
    memory.fetch setup address = .error (.addressOutOfBounds size) := by
  rw [Form.length] at cut
  have refused : memory.immediate setup.config.operandOrder address form.width =
      .error (.addressOutOfBounds size) := immediate_of_cut narrow (by omega)
  simp only [fetch, found, refused]
  rfl

theorem fetch_of_fits (found : setup.table.form? (memory.read address) = some form)
    (fits : address.toNat + form.length ≤ size) :
    memory.fetch setup address =
      .ok { form, immediate := memory.valueBehind setup.config.operandOrder address form.width } := by
  rw [Form.length] at fits
  have read : memory.immediate setup.config.operandOrder address form.width =
      .ok (memory.valueBehind setup.config.operandOrder address form.width) :=
    immediate_of_fits (by omega)
  simp only [fetch, found, read]
  rfl

end Intel8085.Memory

namespace Intel8085.Session

/-- The opcode at the program counter. -/
def opcode (session : Session) : UInt8 :=
  session.machine.memory.read session.programCounter

/-- The number of the address behind an instruction at the program counter. -/
def behind (session : Session) (form : Form) : Nat :=
  session.programCounter.toNat + form.length

/-- An instruction at the program counter with the value of the bytes behind the opcode. -/
def fetched (config : Config) (session : Session) (form : Form) : Fetched where
  form := form
  immediate := session.machine.memory.valueBehind config.operandOrder session.programCounter form.width

/-- The context that an instruction at the program counter is carried out in. -/
def contextOf (config : Config) (session : Session) (form : Form) : Context where
  config := config
  mnemonic := form.mnemonic
  address := session.programCounter
  following := session.behind form
  immediate := session.machine.memory.valueBehind config.operandOrder session.programCounter form.width

/-- What the operation of an instruction at the program counter does. -/
def effect (config : Config) (session : Session) (form : Form) : Effect :=
  form.operation.execute (session.contextOf config form) session.machine

variable {setup : Setup} {session : Session} {form : Form}

theorem attempt_of_no_form (missing : setup.table.form? session.opcode = none) :
    session.attempt setup =
      (session, .fault (.unknownOpcode session.opcode.toNat (some session.programCounter))) :=
  attempt_of_not_fetched (Memory.fetch_of_no_form missing)

theorem attempt_of_cut (found : setup.table.form? session.opcode = some form)
    (narrow : form.width ≤ 2) (cut : Memory.size < session.behind form) :
    session.attempt setup = (session, .fault (.addressOutOfBounds Memory.size)) :=
  attempt_of_not_fetched (Memory.fetch_of_cut found narrow cut)

theorem attempt_of_fits (found : setup.table.form? session.opcode = some form)
    (narrow : form.width ≤ 2) (fits : session.behind form ≤ Memory.size) :
    session.attempt setup =
      session.finish (session.traceLine (session.fetched setup.config form))
        (session.effect setup.config form) := by
  have fetches : session.machine.memory.fetch setup session.programCounter =
      .ok (session.fetched setup.config form) := Memory.fetch_of_fits found fits
  rw [attempt_of_fetched fetches]
  exact carryOut_of_narrow narrow

end Intel8085.Session
