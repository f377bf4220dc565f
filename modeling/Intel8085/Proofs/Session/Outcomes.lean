import Intel8085.Proofs.InstructionSet.Control
import Intel8085.Proofs.Session.Fetching
import Intel8085.Proofs.Session.Steps

/-!
# How a step comes out

With the standard table a step always comes out, and the instruction at the program counter decides
how: whether there is one, whether memory holds all of it, whether the configuration models it,
whether it halts, and where it goes (`step_standard_classified`).  An instruction that goes on behind
the last address ends the run there; the program counter is never wrapped.
-/

set_option autoImplicit false

namespace Intel8085.Session

/-- The form of the instruction at the program counter, with the standard table. -/
def form? (session : Session) : Option Form :=
  OpcodeTable.standard.form? session.opcode

/-- The address that an instruction at the program counter transfers control to, if it is a transfer
and has no condition that fails. -/
def destination? (config : Config) (session : Session) (form : Form) : Option Int :=
  form.transfer?.bind fun transfer =>
    transfer.address? (session.machine.memory.wordBehind config.operandOrder session.programCounter)
      session.machine

/-- The session with the effects of an instruction, which is counted and traced; the program counter
is where it was. -/
def carriedOut (config : Config) (session : Session) (form : Form) : Session :=
  { session with machine := (session.effect config form).machine }.record
    (session.traceLine (session.fetched config form))

section Fits

variable {config : Config} {session : Session} {form : Form}

theorem narrow_of_form (found : session.form? = some form) : form.width ≤ 2 :=
  Form.width_le_two (Form.isRegular_of_standard found)

/-- An instruction that memory holds whole is carried out. -/
theorem attempt_of_form (config : Config) (found : session.form? = some form)
    (fits : session.behind form ≤ Memory.size) :
    session.attempt { table := .standard, config } =
      session.finish (session.traceLine (session.fetched config form))
        (session.effect config form) :=
  attempt_of_fits found (narrow_of_form found) fits

/-- An attempt faults and leaves the session as it was, or memory holds the whole instruction and its
effect is carried through. -/
theorem attempt_cases (config : Config) (session : Session) :
    (∃ fault, session.attempt { table := .standard, config } = (session, .fault fault)) ∨
      ∃ form, session.form? = some form ∧ session.behind form ≤ Memory.size ∧
        session.attempt { table := .standard, config } =
          session.finish (session.traceLine (session.fetched config form))
            (session.effect config form) := by
  cases found : session.form? with
  | none => exact Or.inl ⟨_, attempt_of_no_form found⟩
  | some form =>
      by_cases fits : session.behind form ≤ Memory.size
      · exact Or.inr ⟨form, rfl, fits, attempt_of_form config found fits⟩
      · have cut := Nat.lt_of_not_le fits
        exact Or.inl ⟨_, attempt_of_cut found (narrow_of_form found) cut⟩

theorem word_of_byte (isByte : form.width = 1) :
    (session.contextOf config form).word.toNat ≤ 0xFF := by
  have bound := (session.machine.memory.read (session.programCounter + 1)).toNat_lt
  have zero : (0 : UInt8).toNat = 0 := rfl
  simp only [Context.word, contextOf, Memory.valueBehind, isByte, Option.getD_some,
    toNat_joinBytes]
  omega

theorem word_of_word (isWord : form.width = 2) :
    (session.contextOf config form).word =
      session.machine.memory.wordBehind config.operandOrder session.programCounter := by
  simp only [Context.word, contextOf, Memory.valueBehind, isWord, Option.getD_some]

/-- Only a transfer to the immediate looks at the word behind the opcode. -/
theorem address?_of_transfer (found : session.form? = some form) {transfer : Transfer}
    (transfers : form.transfer? = some transfer) :
    transfer.address? (session.contextOf config form).word session.machine =
      session.destination? config form := by
  rw [destination?, transfers, Option.bind_some]
  by_cases immediate : transfer.target = .immediate
  · rw [word_of_word (Form.width_of_immediate found transfers immediate)]
  · have sameAddress : ∀ word other,
        transfer.target.address word session.machine =
          transfer.target.address other session.machine := by
      intro word other
      cases isTarget : transfer.target with
      | immediate => exact absurd isTarget immediate
      | stackTop => rfl
      | restart number => rfl
      | pairHL => rfl
    rw [Transfer.address?, Transfer.address?, sameAddress]

theorem destination?_bounds (found : session.form? = some form) {address : Int}
    (goes : session.destination? config form = some address) : 0 ≤ address ∧ address ≤ 0xFFFF := by
  obtain ⟨transfer, transfers, reaches⟩ := Option.bind_eq_some_iff.1 goes
  rw [Transfer.address?] at reaches
  split at reaches
  · rw [← Option.some.inj reaches]
    exact Target.address_bounds (Form.isWithinMemory_of_transfer found transfers) _ _
  · cases reaches

theorem isWhole_effect (config : Config) (found : session.form? = some form) :
    (session.effect config form).ending.isWhole = true := by
  have sound := isSound_of_standard found
  have same : (session.contextOf config form).immediate.isSome = hasImmediate form.operands := by
    rw [hasImmediate, ← form.width_eq]
    have narrow := narrow_of_form found
    simp only [contextOf]
    obtain width | width | width : form.width = 0 ∨ form.width = 1 ∨ form.width = 2 := by omega
    · rw [width]
      rfl
    · rw [width]
      rfl
    · rw [width]
      rfl
  rw [← same] at sound
  exact isWhole_execute sound session.machine

theorem destination?_of_modelledOnly (found : session.form? = some form)
    (control : form.control = .modelledOnly) :
    session.destination? config form = none := by
  rw [destination?, Option.bind_eq_none_iff]
  intro transfer transfers
  have other := Form.control_of_transfer found transfers
  rw [control] at other
  cases other

/-- What the operation of an instruction ends with. -/
theorem ending_effect (config : Config) (found : session.form? = some form) :
    (session.effect config form).ending =
      if form.isUnmodelled config then
        .fault (.unsupportedInstruction form.mnemonic (some session.programCounter))
      else if form.mnemonic = haltMnemonic then .halt
      else .proceed (some ((session.destination? config form).getD (session.behind form))) := by
  have ends := ending_execute (isWhole_effect config found) fun onPort =>
    word_of_byte (Form.width_of_port found onPort)
  rw [effect, ends, Form.control_of_standard found]
  by_cases never : unmodelledMnemonics.contains form.mnemonic = true
  · simp only [Form.control, Form.isUnmodelled, never, if_true, Bool.true_or]
    rfl
  · by_cases optional : optionalMnemonics.contains form.mnemonic = true
    · have control : form.control = .modelledOnly := by
        simp only [Form.control, if_neg never, if_pos optional]
      have noHalt : form.mnemonic ≠ haltMnemonic := by
        intro halts
        rw [halts] at optional
        exact absurd optional (by decide)
      have leavesOut : form.isUnmodelled config = !config.modelsIoAndBcd := by
        simp only [Form.isUnmodelled, never, optional, Bool.false_or, Bool.true_and]
      rw [control, destination?_of_modelledOnly found control, if_neg noHalt, leavesOut]
      by_cases modelled : config.modelsIoAndBcd = true
      · rw [modelled]
        exact if_pos modelled
      · rw [Bool.eq_false_iff.2 modelled]
        exact if_neg modelled
    · have modelled : form.isUnmodelled config = false := by
        simp only [Form.isUnmodelled, never, optional, Bool.false_or, Bool.false_and]
      rw [modelled]
      by_cases halts : form.mnemonic = haltMnemonic
      · have control : form.control = .halt := by
          simp only [Form.control, if_neg never, if_neg optional, if_pos halts]
        rw [control, if_pos halts]
        rfl
      · simp only [Form.control, if_neg never, if_neg optional, if_neg halts]
        cases transfers : form.transfer? with
        | none =>
            simp only [destination?, transfers]
            rfl
        | some transfer =>
            simp only [Control.ending, address?_of_transfer found transfers]
            rfl

/-! ## Steps -/

theorem step_of_completed {setup : Setup} {session after : Session} {stop : Option StopReason}
    (completes : session.attempt setup = (after, .completed stop)) :
    session.step setup = (after, .ok stop) := by
  rw [step, completes]

section Whole

variable (found : session.form? = some form) (fits : session.behind form ≤ Memory.size)
include found fits

theorem step_of_unmodelled (unmodelled : form.isUnmodelled config = true) :
    session.step { table := .standard, config } =
      (session.fail (.unsupportedInstruction form.mnemonic (some session.programCounter)),
        .ok (some .unsupported)) := by
  have ends := ending_effect config found
  rw [if_pos unmodelled] at ends
  have attempts := attempt_of_form config found fits
  rw [finish, ends] at attempts
  exact step_of_fault attempts

theorem step_of_halt (modelled : form.isUnmodelled config = false)
    (halts : form.mnemonic = haltMnemonic) :
    session.step { table := .standard, config } =
      ({ session.carriedOut config form with halted := true }, .ok (some .halt)) := by
  have ends := ending_effect config found
  rw [modelled, if_pos halts] at ends
  have attempts := attempt_of_form config found fits
  rw [finish, ends] at attempts
  exact step_of_completed attempts

theorem step_of_next (modelled : form.isUnmodelled config = false)
    (noHalt : form.mnemonic ≠ haltMnemonic) :
    session.step { table := .standard, config } =
      if 0xFFFF < (session.destination? config form).getD (session.behind form) then
        ({ session.carriedOut config form with halted := true }, .ok (some .endOfMemory))
      else
        ((session.carriedOut config form).goTo
          (wordOf ((session.destination? config form).getD (session.behind form))), .ok none) := by
  have ends := ending_effect config found
  rw [modelled, if_neg noHalt] at ends
  have attempts := attempt_of_form config found fits
  rw [finish, ends] at attempts
  simp only [Bool.false_eq_true, if_false] at attempts
  split
  · rename_i beyond
    rw [if_pos beyond] at attempts
    exact step_of_completed attempts
  · rename_i inside
    rw [if_neg inside] at attempts
    exact step_of_completed attempts

end Whole

theorem programCounter_carriedOut (config : Config) (session : Session) (form : Form) :
    (session.carriedOut config form).programCounter = session.programCounter :=
  (staysWithin_execute _ _ session.machine).counter

theorem isUnmodelled_of_halt (config : Config) (halts : form.mnemonic = haltMnemonic) :
    form.isUnmodelled config = false := by
  have always : unmodelledMnemonics.contains haltMnemonic = false ∧
      optionalMnemonics.contains haltMnemonic = false := by decide
  rw [Form.isUnmodelled, halts, always.1, always.2]
  rfl

theorem fits_of_halt (found : session.form? = some form) (halts : form.mnemonic = haltMnemonic) :
    session.behind form ≤ Memory.size := by
  have bound := session.programCounter.toNat_lt
  have whole : Memory.size = 65536 := rfl
  rw [behind, Form.length, Form.width_of_halt found halts]
  omega

end Fits

/-! ## The classification -/

/-- The reason that a step gives, or none, is the one that the instruction at the program counter
has.  With a reason the program counter stays; without one the step goes to the destination of a
transfer, or else on behind the instruction. -/
structure Classified (config : Config) (session after : Session) (reason : Option StopReason) :
    Prop where
  illegal : reason = some .illegal ↔ session.form? = none
  fault : reason = some .fault ↔
    ∃ form, session.form? = some form ∧ Memory.size < session.behind form
  unsupported : reason = some .unsupported ↔
    ∃ form, session.form? = some form ∧ session.behind form ≤ Memory.size ∧
      form.isUnmodelled config = true
  halt : reason = some .halt ↔ ∃ form, session.form? = some form ∧ form.mnemonic = haltMnemonic
  endOfMemory : reason = some .endOfMemory ↔
    ∃ form, session.form? = some form ∧ session.behind form = Memory.size ∧
      form.isUnmodelled config = false ∧ form.mnemonic ≠ haltMnemonic ∧
      session.destination? config form = none
  goesOn : reason = none ↔
    ∃ form, session.form? = some form ∧ session.behind form ≤ Memory.size ∧
      form.isUnmodelled config = false ∧ form.mnemonic ≠ haltMnemonic ∧
      ¬ (session.behind form = Memory.size ∧ session.destination? config form = none)
  stays : reason ≠ none → after.programCounter = session.programCounter
  completes : ∀ form, session.form? = some form → reason = some .endOfMemory →
    after = { session.carriedOut config form with halted := true }
  moves : ∀ form, session.form? = some form → reason = none →
    ∃ next : UInt16, after = (session.carriedOut config form).goTo next ∧
      (next.toNat : Int) = (session.destination? config form).getD (session.behind form)

section Classified

variable {config : Config} {session : Session} {form : Form}

theorem classified_of_no_form (missing : session.form? = none) (fault : Fault) :
    session.Classified config (session.fail fault) (some .illegal) := by
  constructor
  all_goals simp [missing, fail, programCounter]

theorem classified_of_cut (found : session.form? = some form)
    (cut : Memory.size < session.behind form) (fault : Fault) :
    session.Classified config (session.fail fault) (some .fault) := by
  have noHalt : form.mnemonic ≠ haltMnemonic := by
    intro halts
    have fits := fits_of_halt found halts
    omega
  have noFit : ¬ session.behind form ≤ Memory.size := by omega
  have noEnd : session.behind form ≠ Memory.size := by omega
  constructor
  all_goals simp [found, cut, noFit, noEnd, noHalt, fail, programCounter]

theorem classified_of_unmodelled (found : session.form? = some form)
    (fits : session.behind form ≤ Memory.size) (unmodelled : form.isUnmodelled config = true)
    (fault : Fault) : session.Classified config (session.fail fault) (some .unsupported) := by
  have noHalt : form.mnemonic ≠ haltMnemonic := by
    intro halts
    rw [isUnmodelled_of_halt config halts] at unmodelled
    cases unmodelled
  constructor
  all_goals simp [found, fits, unmodelled, noHalt, fail, programCounter]

theorem classified_of_halt (found : session.form? = some form)
    (halts : form.mnemonic = haltMnemonic) :
    session.Classified config { session.carriedOut config form with halted := true }
      (some .halt) := by
  have fits := fits_of_halt found halts
  have modelled := isUnmodelled_of_halt config halts
  have stays := programCounter_carriedOut config session form
  constructor
  case stays => exact fun _ => stays
  all_goals simp [found, fits, modelled, halts]

/-- Only an instruction that goes on can go beyond memory, and only by one. -/
theorem beyond_iff (found : session.form? = some form) (fits : session.behind form ≤ Memory.size) :
    0xFFFF < (session.destination? config form).getD (session.behind form) ↔
      session.behind form = Memory.size ∧ session.destination? config form = none := by
  have whole : Memory.size = 65536 := rfl
  cases goes : session.destination? config form with
  | none =>
      rw [Option.getD_none]
      simp only [and_true]
      omega
  | some address =>
      have bounds := destination?_bounds found goes
      rw [Option.getD_some]
      simp only [reduceCtorEq, and_false, iff_false]
      omega

section Modelled

variable (found : session.form? = some form) (modelled : form.isUnmodelled config = false)
  (noHalt : form.mnemonic ≠ haltMnemonic)
include found modelled noHalt

theorem classified_of_end (ends : session.behind form = Memory.size)
    (goesNowhere : session.destination? config form = none) :
    session.Classified config { session.carriedOut config form with halted := true }
      (some .endOfMemory) := by
  have stays := programCounter_carriedOut config session form
  constructor
  case stays => exact fun _ => stays
  all_goals simp [found, modelled, noHalt, ends, goesNowhere]

theorem classified_of_next (fits : session.behind form ≤ Memory.size)
    (inside : ¬ 0xFFFF < (session.destination? config form).getD (session.behind form)) :
    session.Classified config
      ((session.carriedOut config form).goTo
        (wordOf ((session.destination? config form).getD (session.behind form)))) none := by
  have noEnd := mt (beyond_iff found fits).2 inside
  have noCut : ¬ Memory.size < session.behind form := Nat.not_lt_of_le fits
  have positive : 0 ≤ (session.destination? config form).getD (session.behind form) := by
    cases goes : session.destination? config form with
    | none => exact Int.natCast_nonneg _
    | some address => exact (destination?_bounds found goes).1
  constructor
  case moves =>
    intro other isForm _
    obtain rfl : form = other := Option.some.inj (found.symm.trans isForm)
    refine ⟨_, rfl, ?_⟩
    rw [toNat_wordOf]
    omega
  case goesOn => exact ⟨fun _ => ⟨form, found, fits, modelled, noHalt, noEnd⟩, fun _ => rfl⟩
  case endOfMemory =>
    constructor
    · intro impossible
      cases impossible
    · rintro ⟨other, isForm, ends, _, _, goesNowhere⟩
      obtain rfl : form = other := Option.some.inj (found.symm.trans isForm)
      exact absurd ⟨ends, goesNowhere⟩ noEnd
  all_goals simp [found, modelled, noHalt, noCut]

end Modelled

end Classified

/-- With the standard table, whatever the configuration and the session: a step comes out, and the
instruction at the program counter decides how. -/
theorem step_standard_classified (config : Config) (session : Session) :
    ∃ after reason, session.step { table := .standard, config } = (after, .ok reason) ∧
      session.Classified config after reason := by
  cases found : session.form? with
  | none =>
      exact ⟨_, _, step_of_fault (attempt_of_no_form found), classified_of_no_form found _⟩
  | some form =>
      by_cases fits : session.behind form ≤ Memory.size
      · by_cases unmodelled : form.isUnmodelled config = true
        · exact ⟨_, _, step_of_unmodelled found fits unmodelled,
            classified_of_unmodelled found fits unmodelled _⟩
        · have modelled := Bool.eq_false_iff.2 unmodelled
          by_cases halts : form.mnemonic = haltMnemonic
          · exact ⟨_, _, step_of_halt found fits modelled halts, classified_of_halt found halts⟩
          · have steps := step_of_next found fits modelled halts
            by_cases beyond : 0xFFFF < (session.destination? config form).getD
                (session.behind form)
            · obtain ⟨ends, goesNowhere⟩ := (beyond_iff found fits).1 beyond
              rw [if_pos beyond] at steps
              exact ⟨_, _, steps, classified_of_end found modelled halts ends goesNowhere⟩
            · rw [if_neg beyond] at steps
              exact ⟨_, _, steps, classified_of_next found modelled halts fits beyond⟩
      · have cut : Memory.size < session.behind form := Nat.lt_of_not_le fits
        exact ⟨_, _, step_of_fault (attempt_of_cut found (narrow_of_form found) cut),
          classified_of_cut found cut _⟩

end Intel8085.Session
