import Mathlib.Data.List.Forall2

/-!
# Computations that may fail

When a sequence of computations succeeds, each of its parts has succeeded, and a list of them gives
results that go with its items one by one.
-/

set_option autoImplicit false

namespace Intel8085

variable {Error First Second : Type}

theorem bind_eq_ok_iff {first : Except Error First} {next : First → Except Error Second}
    {result : Second} :
    (first >>= next) = .ok result ↔ ∃ value, first = .ok value ∧ next value = .ok result := by
  cases first with
  | error error =>
      constructor
      · intro impossible
        cases impossible
      · rintro ⟨value, impossible, _⟩
        cases impossible
  | ok value =>
      constructor
      · intro success
        exact ⟨value, rfl, success⟩
      · rintro ⟨other, same, success⟩
        rw [Except.ok.inj same]
        exact success

theorem bind_eq_error_iff {first : Except Error First} {next : First → Except Error Second}
    {error : Error} :
    (first >>= next) = .error error ↔
      first = .error error ∨ ∃ value, first = .ok value ∧ next value = .error error := by
  cases first with
  | error other =>
      constructor
      · intro failure
        exact Or.inl (congrArg Except.error (Except.error.inj failure))
      · rintro (failure | ⟨value, impossible, _⟩)
        · exact congrArg Except.error (Except.error.inj failure)
        · cases impossible
  | ok value =>
      constructor
      · intro failure
        exact Or.inr ⟨value, rfl, failure⟩
      · rintro (impossible | ⟨other, same, failure⟩)
        · cases impossible
        · rw [Except.ok.inj same]
          exact failure

theorem map_eq_ok_iff {first : Except Error First} {function : First → Second} {result : Second} :
    (function <$> first) = .ok result ↔ ∃ value, first = .ok value ∧ function value = result := by
  cases first with
  | error error =>
      constructor
      · intro impossible
        cases impossible
      · rintro ⟨value, impossible, _⟩
        cases impossible
  | ok value =>
      constructor
      · intro success
        exact ⟨value, rfl, Except.ok.inj success⟩
      · rintro ⟨other, same, rfl⟩
        rw [Except.ok.inj same]
        rfl

theorem map_eq_error_iff {first : Except Error First} {function : First → Second} {error : Error} :
    (function <$> first) = .error error ↔ first = .error error := by
  cases first with
  | error other =>
      constructor
      · intro failure
        exact congrArg Except.error (Except.error.inj failure)
      · intro failure
        exact congrArg Except.error (Except.error.inj failure)
  | ok value =>
      constructor
      · intro impossible
        cases impossible
      · intro impossible
        cases impossible

theorem pure_eq_ok_iff {value result : First} :
    (pure value : Except Error First) = .ok result ↔ value = result :=
  ⟨Except.ok.inj, congrArg Except.ok⟩

/-- A list of computations succeeds when each of them does, and gives their results in order. -/
theorem mapM_eq_ok_iff {function : First → Except Error Second} {items : List First}
    {results : List Second} :
    items.mapM function = .ok results ↔
      List.Forall₂ (fun item result => function item = .ok result) items results := by
  induction items generalizing results with
  | nil =>
      rw [List.mapM_nil, pure_eq_ok_iff, List.forall₂_nil_left_iff]
      exact eq_comm
  | cons item others inductionHypothesis =>
      simp only [List.mapM_cons, bind_eq_ok_iff, pure_eq_ok_iff, inductionHypothesis,
        List.forall₂_cons_left_iff]
      constructor
      · rintro ⟨result, first, later, rest, rfl⟩
        exact ⟨result, later, first, rest, rfl⟩
      · rintro ⟨result, later, first, rest, rfl⟩
        exact ⟨result, first, later, rest, rfl⟩

theorem exists_mapM_eq_ok {function : First → Except Error Second} {items : List First}
    (succeeds : ∀ item ∈ items, ∃ result, function item = .ok result) :
    ∃ results, items.mapM function = .ok results := by
  induction items with
  | nil => exact ⟨[], rfl⟩
  | cons item others inductionHypothesis =>
      obtain ⟨result, first⟩ := succeeds item List.mem_cons_self
      obtain ⟨results, rest⟩ := inductionHypothesis fun other member =>
        succeeds other (List.mem_cons_of_mem item member)
      refine ⟨result :: results, ?_⟩
      rw [List.mapM_cons, first, rest]
      rfl

/-- When a list of computations fails, it is with the error of one of them. -/
theorem exists_of_mapM_eq_error {function : First → Except Error Second} {items : List First}
    {error : Error} (failure : items.mapM function = .error error) :
    ∃ item ∈ items, function item = .error error := by
  induction items with
  | nil => cases failure
  | cons item others inductionHypothesis =>
      rw [List.mapM_cons] at failure
      rcases bind_eq_error_iff.1 failure with first | ⟨_, _, rest⟩
      · exact ⟨item, List.mem_cons_self, first⟩
      · rcases bind_eq_error_iff.1 rest with later | ⟨_, _, impossible⟩
        · obtain ⟨other, member, fails⟩ := inductionHypothesis later
          exact ⟨other, List.mem_cons_of_mem item member, fails⟩
        · cases impossible

/-- When a fold fails, it is with the error of one of its steps. -/
theorem exists_of_foldlM_eq_error {step : Second → First → Except Error Second}
    {items : List First} {state : Second} {error : Error}
    (failure : items.foldlM step state = .error error) :
    ∃ item ∈ items, ∃ reached, step reached item = .error error := by
  induction items generalizing state with
  | nil => cases failure
  | cons item others inductionHypothesis =>
      rw [List.foldlM_cons] at failure
      rcases bind_eq_error_iff.1 failure with first | ⟨_, _, rest⟩
      · exact ⟨item, List.mem_cons_self, state, first⟩
      · obtain ⟨other, member, fails⟩ := inductionHypothesis rest
        exact ⟨other, List.mem_cons_of_mem item member, fails⟩

/-- What every step keeps a fold keeps. -/
theorem holds_of_foldlM {step : Second → First → Except Error Second} {Holds : Second → Prop}
    {items : List First}
    (keeps : ∀ item ∈ items, ∀ before after, step before item = .ok after → Holds before →
      Holds after)
    {start result : Second} (success : items.foldlM step start = .ok result)
    (holds : Holds start) : Holds result := by
  induction items generalizing start with
  | nil =>
      cases success
      exact holds
  | cons item others inductionHypothesis =>
      rw [List.foldlM_cons, bind_eq_ok_iff] at success
      obtain ⟨middle, first, rest⟩ := success
      refine inductionHypothesis ?_ rest (keeps item List.mem_cons_self start middle first holds)
      exact fun other member => keeps other (List.mem_cons_of_mem item member)

theorem mapM_eq_some_iff {function : First → Option Second} {items : List First}
    {results : List Second} :
    items.mapM function = some results ↔
      List.Forall₂ (fun item result => function item = some result) items results := by
  induction items generalizing results with
  | nil =>
      rw [List.mapM_nil, List.forall₂_nil_left_iff]
      exact Option.some_inj.trans eq_comm
  | cons item others inductionHypothesis =>
      simp only [List.mapM_cons, Option.bind_eq_bind, Option.bind_eq_some_iff, Option.pure_def,
        Option.some_inj, inductionHypothesis, List.forall₂_cons_left_iff]
      constructor
      · rintro ⟨result, first, later, rest, rfl⟩
        exact ⟨result, later, first, rest, rfl⟩
      · rintro ⟨result, later, first, rest, rfl⟩
        exact ⟨result, first, later, rest, rfl⟩

/-- Items and results that go together one by one go together in any way that follows from it. -/
theorem forall₂_of_mem {relation other : First → Second → Prop} {firsts : List First}
    {seconds : List Second} (related : List.Forall₂ relation firsts seconds)
    (implies : ∀ first ∈ firsts, ∀ second ∈ seconds, relation first second → other first second) :
    List.Forall₂ other firsts seconds := by
  induction related with
  | nil => exact .nil
  | @cons first second _ _ holds _ inductionHypothesis =>
      refine .cons (implies first List.mem_cons_self second List.mem_cons_self holds) ?_
      apply inductionHypothesis
      intro laterFirst inFirsts laterSecond inSeconds
      exact implies laterFirst (List.mem_cons_of_mem first inFirsts) laterSecond
        (List.mem_cons_of_mem second inSeconds)

/-- Where items go together with items of a second list, and those with items of a third one, the
first and the third go together. -/
theorem forall₂_trans {Third : Type} {relation : First → Second → Prop}
    {next : Second → Third → Prop} {both : First → Third → Prop}
    (compose : ∀ first second third, relation first second → next second third → both first third)
    {firsts : List First} {seconds : List Second} {thirds : List Third}
    (related : List.Forall₂ relation firsts seconds)
    (goesOn : List.Forall₂ next seconds thirds) : List.Forall₂ both firsts thirds := by
  induction related generalizing thirds with
  | nil =>
      cases goesOn
      exact .nil
  | cons holds _ inductionHypothesis =>
      cases goesOn with
      | cons nextHolds later =>
          exact .cons (compose _ _ _ holds nextHolds) (inductionHypothesis later)

theorem exists_of_mem_left {relation : First → Second → Prop} {firsts : List First}
    {seconds : List Second} (related : List.Forall₂ relation firsts seconds) {first : First}
    (member : first ∈ firsts) : ∃ second ∈ seconds, relation first second := by
  induction related with
  | nil => exact absurd member List.not_mem_nil
  | @cons _ second _ _ holds _ inductionHypothesis =>
      rcases List.mem_cons.1 member with rfl | later
      · exact ⟨second, List.mem_cons_self, holds⟩
      · obtain ⟨other, inSeconds, laterHolds⟩ := inductionHypothesis later
        exact ⟨other, List.mem_cons_of_mem second inSeconds, laterHolds⟩

theorem exists_of_mem_right {relation : First → Second → Prop} {firsts : List First}
    {seconds : List Second} (related : List.Forall₂ relation firsts seconds) {second : Second}
    (member : second ∈ seconds) : ∃ first ∈ firsts, relation first second :=
  exists_of_mem_left related.flip member

end Intel8085
