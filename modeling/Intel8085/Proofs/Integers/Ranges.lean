import Intel8085.Proofs.Integers.Requests

/-!
# Ranges of integers

In a session of integers nothing keeps a number within its range but the assignments themselves.
After any requests, whatever their integers and whichever of them were refused, all of them have done
so (`performAll_keepsRanges`): the integers are those of the bytes and words of a session that was
asked for the same (`performAll_integers`), and these are within their ranges (`integers_inRange`).
-/

set_option autoImplicit false

namespace Intel8085

/-- So many integers, each of which is a byte. -/
structure HoldsBytes (count : Nat) (numbers : List Int) : Prop where
  length : numbers.length = count
  bytes : ∀ number ∈ numbers, 0 ≤ number ∧ number ≤ 0xFF

def IsWord (number : Int) : Prop :=
  0 ≤ number ∧ number ≤ 0xFFFF

/-- The integers of a session are within the ranges of what they stand for. -/
structure IntegerSession.InRange (config : Config) (session : IntegerSession) : Prop where
  memory : HoldsBytes 0x10000 session.machine.memory
  ports : HoldsBytes 0x100 session.machine.ports
  file : HoldsBytes 8 session.machine.registers.file
  stackPointer : IsWord session.machine.registers.stackPointer
  programCounter : IsWord session.machine.registers.programCounter
  breakpoints : ∀ address ∈ session.breakpoints, IsWord address
  trace : 0 < config.traceLimit → session.trace.length ≤ config.traceLimit

theorem isWord_toNat (word : UInt16) : IsWord word.toNat := by
  have bound := word.toNat_lt
  constructor <;> omega

theorem holdsBytes_map {Item : Type} (byte : Item → UInt8) (items : List Item) :
    HoldsBytes items.length (items.map fun item => ((byte item).toNat : Int)) where
  length := List.length_map _
  bytes := by
    intro number member
    obtain ⟨item, _, rfl⟩ := List.mem_map.1 member
    have bound := (byte item).toNat_lt
    constructor <;> omega

theorem Bank.holdsBytes_integers {height : Nat} (bank : Bank UInt8 height) :
    HoldsBytes (2 ^ height) bank.integers := by
  have bytes := holdsBytes_map id bank.toList
  rw [Bank.length_toList] at bytes
  exact bytes

namespace Session

theorem integers_inRange {config : Config} {session : Session} (kept : session.IsKept config) :
    session.integers.InRange config where
  memory := session.machine.memory.holdsBytes_integers
  ports := session.machine.ports.values.holdsBytes_integers
  file := holdsBytes_map session.machine.registers.read Register.all
  stackPointer := isWord_toNat _
  programCounter := isWord_toNat _
  breakpoints := by
    intro address member
    obtain ⟨word, _, rfl⟩ := List.mem_map.1 (List.mem_toFinset.1 member)
    exact isWord_toNat word
  trace := by
    intro positive
    rw [← kept.limit] at positive ⊢
    rw [integers, List.length_map]
    exact length_trace_le positive

/-- With every opcode table and every configuration, after every sequence of requests: memory has
65536 cells and there are 256 ports, the register file has eight slots, and each of these holds a
byte; the stack pointer, the program counter and every breakpoint are words; and a trace with a limit
has no more lines than that.  The integers are those of a session of bytes and words, and what the
host reads of it is within the ranges too. -/
theorem performAll_keepsRanges (setup : Setup) (patience : Nat) (requests : List Request) :
    ((IntegerSession.initial setup.config).performAll setup patience requests).InRange
        setup.config ∧
      (IntegerSession.initial setup.config).performAll setup patience requests =
        ((initial setup.config).performAll setup patience requests).1.integers ∧
      ((initial setup.config).performAll setup patience requests).1.InRange setup patience := by
  have start : (initial setup.config).IsKept setup.config := ⟨rfl, .nil⟩
  have same := @performAll_integers setup patience (initial setup.config) requests _ start
  rw [initial_integers] at same
  have kept := @isKept_performAll setup _ _ patience requests start
  refine ⟨?_, same, inRange_of_isKept kept⟩
  rw [same]
  exact integers_inRange kept

end Session

end Intel8085
