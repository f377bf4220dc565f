import Intel8085.Proofs.Disassembly.Sweep
import Intel8085.Proofs.Machine.Faults
import Intel8085.Proofs.Session.Fetching

/-!
# Stepping and disassembly read the same instruction

What a step fetches from memory and what disassembly reads off the image of that memory is the same
instruction, at every address, in both orders of a word and with every table of narrow forms
(`attempt_readsAlike`).  Where there is no whole instruction the step meets a fault and disassembly
writes data.  The line that a step leaves in the trace is the one that disassembly gives for the
memory before the step, also if the step overwrites the instruction.
-/

set_option autoImplicit false

namespace Intel8085

open Intel8085.Text Intel8085.Disassembly

/-! ## The image of the memory -/

namespace Memory

variable {memory : Memory} {address : UInt16}

/-- The bytes of the image from an address on. -/
def imageFrom (memory : Memory) (address : Nat) : List UInt8 :=
  memory.toList.drop address

theorem imageFrom_eq (memory : Memory) (address : UInt16) :
    memory.imageFrom address.toNat =
      memory.read address :: memory.imageFrom (address.toNat + 1) :=
  Bank.drop_toList memory address.toNat_lt

theorem length_imageFrom (memory : Memory) (address : Nat) :
    (memory.imageFrom address).length = size - address := by
  rw [imageFrom, List.length_drop, Bank.length_toList]
  rfl

theorem imageFrom_offset {offset : UInt16} (fits : address.toNat + offset.toNat < size) :
    memory.imageFrom (address.toNat + offset.toNat) =
      memory.read (address + offset) :: memory.imageFrom (address.toNat + offset.toNat + 1) := by
  have whole : size = 65536 := rfl
  have same : (address + offset).toNat = address.toNat + offset.toNat := by
    rw [UInt16.toNat_add]
    omega
  have front := memory.imageFrom_eq (address + offset)
  rw [same] at front
  exact front

/-- The value of so many bytes behind an address is the word that they stand for in the image. -/
theorem valueBehind_eq (order : ByteOrder) {width : Nat} (narrow : width ≤ 2)
    (fits : address.toNat + width < size) :
    (memory.valueBehind order address width).getD 0 =
      order.joinWord ((memory.imageFrom (address.toNat + 1)).take width) := by
  have one : (1 : UInt16).toNat = 1 := rfl
  have two : (2 : UInt16).toNat = 2 := rfl
  have first : 1 ≤ width → memory.imageFrom (address.toNat + 1) =
      memory.read (address + 1) :: memory.imageFrom (address.toNat + 2) := by
    intro wide
    have front := @imageFrom_offset memory address 1 (by omega)
    rwa [one] at front
  obtain rfl | rfl | rfl : width = 0 ∨ width = 1 ∨ width = 2 := by omega
  · rfl
  · rw [first (Nat.le_refl 1)]
    rfl
  · have second := @imageFrom_offset memory address 2 (by omega)
    rw [two] at second
    rw [first (by omega), second]
    rfl

end Memory

/-! ## First words -/

/-- The characters of a text up to its first blank. -/
def firstWord (text : String) : List Char :=
  text.toList.takeWhile fun character => character != ' '

theorem firstWord_append_blank (word rest : String) :
    firstWord (word ++ " " ++ rest) = firstWord word := by
  have blank : (" " : String).toList = [' '] := rfl
  rw [firstWord, String.toList_append, String.toList_append, blank, List.append_assoc, firstWord]
  rw [List.takeWhile_append]
  split
  · rename_i everything
    have whole : word.toList.takeWhile (fun character => character != ' ') = word.toList :=
      (List.takeWhile_prefix _).eq_of_length everything
    rw [whole]
    simp
  · rfl

theorem firstWord_codeLine (order : ByteOrder) (form : Form) (opcode : UInt8) (bytes : List UInt8)
    (address : Int) :
    firstWord (codeLine order form opcode bytes address).text = firstWord form.mnemonic := by
  simp only [codeLine, filledText]
  split
  · rfl
  · exact firstWord_append_blank form.mnemonic _

theorem firstWord_dataLine (raw : List UInt8) (address : Int) :
    firstWord (dataLine raw address).text = Assembly.dataDirective.toList := by
  have shape : (dataLine raw address).text = Assembly.dataDirective ++ " " ++ ",".intercalate
      (raw.map fun byte => String.ofList (Source.hexLiteral 2 byte.toNat)) := rfl
  rw [shape, firstWord_append_blank]
  decide

namespace Session

/-- The line that disassembly gives at the program counter for the image of the memory. -/
def decodedLine (setup : Setup) (session : Session) : Except Failure (Option Line) :=
  lineAt setup.table setup.config.operandOrder session.machine.memory.toList
    session.programCounter.toNat session.programCounter.toNat

/-- The opcode at the program counter has a form, but memory ends before its immediate does. -/
def IsCut (setup : Setup) (session : Session) : Prop :=
  ∃ form, setup.table.form? session.opcode = some form ∧ Memory.size < session.behind form

/-- The line of an instruction at the program counter, with the bytes of its immediate in the
image. -/
def codeLineOf (config : Config) (session : Session) (form : Form) : Line :=
  codeLine config.operandOrder form session.opcode
    ((session.machine.memory.imageFrom (session.programCounter.toNat + 1)).take form.width)
    session.programCounter.toNat

/-! ## Disassembly at the program counter -/

section Decoding

variable {setup : Setup} {session : Session}

theorem decodedLine_eq :
    session.decodedLine setup =
      some <$> frontLine setup.table setup.config.operandOrder session.opcode
        (session.machine.memory.imageFrom (session.programCounter.toNat + 1))
        session.programCounter.toNat := by
  have inside : ¬ ((session.programCounter.toNat : Int) < 0) := by omega
  have front : session.machine.memory.toList.drop session.programCounter.toNat =
      session.opcode :: session.machine.memory.imageFrom (session.programCounter.toNat + 1) :=
    Memory.imageFrom_eq session.machine.memory session.programCounter
  simp only [decodedLine, lineAt, if_neg inside, Int.toNat_natCast, front]

theorem decodedLine_of_no_form (missing : setup.table.form? session.opcode = none) :
    session.decodedLine setup =
      .ok (some (dataLine [session.opcode] session.programCounter.toNat)) := by
  rw [decodedLine_eq, frontLine_of_no_form missing]
  rfl

variable {form : Form} (found : setup.table.form? session.opcode = some form)
include found

theorem decodedLine_of_cut (cut : Memory.size < session.behind form) :
    session.decodedLine setup =
      .ok (some (dataLine (session.machine.memory.imageFrom session.programCounter.toNat)
        session.programCounter.toNat)) := by
  have tooFew : (session.machine.memory.imageFrom (session.programCounter.toNat + 1)).length <
      form.width := by
    have bound := session.programCounter.toNat_lt
    have whole : Memory.size = 65536 := rfl
    rw [behind, Form.length] at cut
    rw [Memory.length_imageFrom]
    omega
  rw [decodedLine_eq, frontLine_of_cut found tooFew, Memory.imageFrom_eq]
  rfl

theorem decodedLine_of_fits (narrow : form.width ≤ 2) (fits : session.behind form ≤ Memory.size) :
    session.decodedLine setup = .ok (some (session.codeLineOf setup.config form)) := by
  have enough : form.width ≤
      (session.machine.memory.imageFrom (session.programCounter.toNat + 1)).length := by
    rw [behind, Form.length] at fits
    rw [Memory.length_imageFrom]
    omega
  rw [decodedLine_eq, frontLine_of_narrow found narrow enough]
  rfl

end Decoding

/-! ## The trace -/

section Tracing

variable {config : Config} {session : Session} {form : Form}

/-- The line in the trace reads as disassembly reads the memory before the step. -/
theorem display_traceLine (narrow : form.width ≤ 2) (fits : session.behind form ≤ Memory.size) :
    (session.traceLine (session.fetched config form)).display =
      "$" ++ hexText 4 session.programCounter.toNat ++ ": " ++
        padded TraceLine.instructionWidth (session.codeLineOf config form).text ++ " " ++
        session.machine.registers.display := by
  have width : session.programCounter.toNat + form.width < Memory.size := by
    rw [behind, Form.length] at fits
    omega
  have word := @Memory.valueBehind_eq session.machine.memory session.programCounter
    config.operandOrder form.width narrow width
  have value : (session.traceLine (session.fetched config form)).value =
      ((session.contextOf config form).immediate.getD 0).toNat := by
    simp only [traceLine, fetched, contextOf]
    split
    · rename_i isValue
      rw [isValue]
      rfl
    · rename_i noValue
      rw [noValue]
      rfl
  have sameText : (session.traceLine (session.fetched config form)).instruction =
      (session.codeLineOf config form).text := by
    rw [TraceLine.instruction, value, contextOf, word]
    rfl
  simp only [TraceLine.display, sameText, padded, Int.toNat_natCast, String.append_assoc]
  rfl

/-- A step that is completed leaves its line in the trace. -/
theorem trace_finish {after : Session} {line : TraceLine} {effect : Effect}
    {stop : Option StopReason} (tracing : session.tracing = true)
    (finished : session.finish line effect = (after, .completed stop)) :
    after.trace = session.trace.push line := by
  obtain ⟨machine, halted, rfl⟩ := finish_completed_leaves finished
  exact if_pos tracing

end Tracing

/-! ## The comparison -/

/-- What a step does at the program counter, and what disassembly reads there. -/
structure ReadsAlike (setup : Setup) (session : Session) : Prop where
  unknown : (∃ opcode address,
      (session.attempt setup).2 = .fault (.unknownOpcode opcode address)) ↔
    setup.table.form? session.opcode = none
  beyond : (∃ address, (session.attempt setup).2 = .fault (.addressOutOfBounds address)) ↔
    session.IsCut setup
  refused : setup.table.form? session.opcode = none ∨ session.IsCut setup →
    ∃ fault, session.machine.memory.fetch setup session.programCounter = .error fault ∧
      session.attempt setup = (session, .fault fault)
  data : setup.table.form? session.opcode = none →
    session.decodedLine setup =
      .ok (some (dataLine [session.opcode] session.programCounter.toNat))
  cutData : session.IsCut setup →
    session.decodedLine setup =
      .ok (some (dataLine (session.machine.memory.imageFrom session.programCounter.toNat)
        session.programCounter.toNat))
  code : ∀ form, setup.table.form? session.opcode = some form →
    session.behind form ≤ Memory.size →
      session.decodedLine setup = .ok (some (session.codeLineOf setup.config form))
  words : (∀ opcode form, setup.table.form? opcode = some form →
      firstWord form.mnemonic ≠ Assembly.dataDirective.toList) →
    ∃ line, session.decodedLine setup = .ok (some line) ∧
      (firstWord line.text = Assembly.dataDirective.toList ↔
        setup.table.form? session.opcode = none ∨ session.IsCut setup)
  traced : ∀ after stop, session.tracing = true →
    session.attempt setup = (after, .completed stop) →
      ∃ line entry, session.decodedLine setup = .ok (some line) ∧
        after.trace = session.trace.push entry ∧
        entry.display = "$" ++ hexText 4 session.programCounter.toNat ++ ": " ++
          padded TraceLine.instructionWidth line.text ++ " " ++ session.machine.registers.display

section Comparison

variable {setup : Setup} {session : Session}

theorem readsAlike_of_no_form (missing : setup.table.form? session.opcode = none) :
    session.ReadsAlike setup := by
  have attempts := attempt_of_no_form missing
  have decodes := decodedLine_of_no_form missing
  have notCut : ¬ session.IsCut setup := by
    rintro ⟨form, found, _⟩
    rw [missing] at found
    cases found
  refine ⟨?_, ?_, ?_, fun _ => decodes, fun isCut => absurd isCut notCut, ?_, ?_, ?_⟩
  · exact ⟨fun _ => missing, fun _ => ⟨_, _, congrArg Prod.snd attempts⟩⟩
  · refine ⟨?_, fun isCut => absurd isCut notCut⟩
    rintro ⟨address, faults⟩
    rw [attempts] at faults
    cases faults
  · exact fun _ => ⟨_, Memory.fetch_of_no_form missing, attempts⟩
  · intro form found
    rw [missing] at found
    cases found
  · exact fun _ => ⟨_, decodes, fun _ => Or.inl missing, fun _ => firstWord_dataLine _ _⟩
  · intro after stop _ completes
    rw [attempts] at completes
    cases completes

variable {form : Form} (found : setup.table.form? session.opcode = some form)
  (narrow : form.width ≤ 2)
include found narrow

theorem readsAlike_of_cut (cut : Memory.size < session.behind form) :
    session.ReadsAlike setup := by
  have attempts := attempt_of_cut found narrow cut
  have decodes := decodedLine_of_cut found cut
  have isCut : session.IsCut setup := ⟨form, found, cut⟩
  have known : setup.table.form? session.opcode ≠ none := by
    rw [found]
    exact Option.some_ne_none form
  refine ⟨?_, ?_, ?_, fun missing => absurd missing known, fun _ => decodes, ?_, ?_, ?_⟩
  · refine ⟨?_, fun missing => absurd missing known⟩
    rintro ⟨opcode, address, faults⟩
    rw [attempts] at faults
    cases faults
  · exact ⟨fun _ => isCut, fun _ => ⟨_, congrArg Prod.snd attempts⟩⟩
  · exact fun _ => ⟨_, Memory.fetch_of_cut found narrow cut, attempts⟩
  · intro other isForm fits
    obtain rfl : form = other := Option.some.inj (found.symm.trans isForm)
    exact absurd cut (Nat.not_lt_of_le fits)
  · exact fun _ => ⟨_, decodes, fun _ => Or.inr isCut, fun _ => firstWord_dataLine _ _⟩
  · intro after stop _ completes
    rw [attempts] at completes
    cases completes

/-- The operation of a whole instruction meets none of the faults of fetching. -/
theorem fault_of_fits (fits : session.behind form ≤ Memory.size) {fault : Fault}
    (faults : (session.attempt setup).2 = .fault fault) :
    fault = .unsupportedInstruction form.mnemonic (some session.programCounter) ∨
      ∃ number, fault = .portOutOfBounds number := by
  rw [attempt_of_fits found narrow fits] at faults
  rcases finished : session.finish (session.traceLine (session.fetched setup.config form))
    (session.effect setup.config form) with ⟨after, outcome⟩
  rw [finished] at faults
  rcases finish_cases finished with ⟨other, rfl, ends, _⟩ | ⟨_, rfl, _⟩ | ⟨_, rfl, _⟩
  · cases faults
    exact (staysWithin_execute form.operation _ session.machine).faults fault ends
  · cases faults
  · cases faults

theorem readsAlike_of_fits (fits : session.behind form ≤ Memory.size) :
    session.ReadsAlike setup := by
  have decodes := decodedLine_of_fits found narrow fits
  have known : setup.table.form? session.opcode ≠ none := by
    rw [found]
    exact Option.some_ne_none form
  have notCut : ¬ session.IsCut setup := by
    rintro ⟨other, isForm, cut⟩
    obtain rfl : form = other := Option.some.inj (found.symm.trans isForm)
    exact absurd cut (Nat.not_lt_of_le fits)
  have neither : ¬ (setup.table.form? session.opcode = none ∨ session.IsCut setup) :=
    not_or.2 ⟨known, notCut⟩
  refine ⟨?_, ?_, fun either => absurd either neither, fun missing => absurd missing known,
    fun isCut => absurd isCut notCut, ?_, ?_, ?_⟩
  · refine ⟨?_, fun missing => absurd missing known⟩
    rintro ⟨opcode, address, faults⟩
    rcases fault_of_fits found narrow fits faults with impossible | ⟨_, impossible⟩
    · cases impossible
    · cases impossible
  · refine ⟨?_, fun isCut => absurd isCut notCut⟩
    rintro ⟨address, faults⟩
    rcases fault_of_fits found narrow fits faults with impossible | ⟨_, impossible⟩
    · cases impossible
    · cases impossible
  · intro other isForm _
    obtain rfl : form = other := Option.some.inj (found.symm.trans isForm)
    exact decodes
  · intro proper
    refine ⟨_, decodes, ?_, fun either => absurd either neither⟩
    intro isData
    rw [codeLineOf, firstWord_codeLine] at isData
    exact absurd isData (proper session.opcode form found)
  · intro after stop tracing completes
    rw [attempt_of_fits found narrow fits] at completes
    exact ⟨_, _, decodes, trace_finish tracing completes, display_traceLine narrow fits⟩

end Comparison

/-- Whatever the configuration and the session, and whatever the opcode table if no form of it has
more than two immediate bytes: a step and disassembly read the same instruction. -/
theorem attempt_readsAlike (setup : Setup)
    (narrow : ∀ opcode form, setup.table.form? opcode = some form → form.width ≤ 2)
    (session : Session) : session.ReadsAlike setup := by
  cases found : setup.table.form? session.opcode with
  | none => exact readsAlike_of_no_form found
  | some form =>
      by_cases fits : session.behind form ≤ Memory.size
      · exact readsAlike_of_fits found (narrow session.opcode form found) fits
      · exact readsAlike_of_cut found (narrow session.opcode form found) (Nat.lt_of_not_le fits)

/-- A session with the trace on that stands before `STA 0`, which overwrites itself. -/
def beforeSelfStore : Session :=
  { Session.initial .standard with
    machine := { Machine.initial with memory := Memory.blank.write 0 0x32 }
    tracing := true }

theorem attempt_readsAlike_of_selfStore :
    ∃ after entry, beforeSelfStore.attempt { table := .standard, config := .standard } =
        (after, .completed none) ∧
      after.machine.memory.read 0 = 0 ∧ after.trace = beforeSelfStore.trace.push entry ∧
      entry.display = "$0000: STA 0000H   " ++ " " ++ beforeSelfStore.machine.registers.display := by
  obtain ⟨after, attempts, overwritten⟩ : ∃ after,
      beforeSelfStore.attempt { table := .standard, config := .standard } =
        (after, .completed none) ∧ after.machine.memory.read 0 = 0 := ⟨_, rfl, rfl⟩
  have alike := attempt_readsAlike { table := .standard, config := .standard }
    (fun _ _ found => Form.width_le_two (Form.isRegular_of_standard found)) beforeSelfStore
  obtain ⟨line, entry, decodes, pushed, display⟩ := alike.traced after none rfl attempts
  have code := alike.code (.ofPattern "STA" ["D16"] 4 13) rfl (by decide)
  rw [code] at decodes
  cases decodes
  refine ⟨after, entry, attempts, overwritten, pushed, ?_⟩
  rw [display]
  rfl

end Session

end Intel8085
