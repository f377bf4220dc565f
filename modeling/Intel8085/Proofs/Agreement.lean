import Intel8085.Proofs.Results

/-!
# Computations side by side

Two computations correspond when they fail with errors that belong together or succeed with results
that belong together, and they agree when their errors are equal.  A computation persists in another
when its success is a success of the other.  Sequences and folds of computations that correspond,
agree or persist step by step do so as a whole.
-/

set_option autoImplicit false

namespace Intel8085

variable {Error First Second : Type}

inductive Corresponds {FirstError SecondError : Type} (errors : FirstError → SecondError → Prop)
    (relation : First → Second → Prop) :
    Except FirstError First → Except SecondError Second → Prop where
  | failure {error : FirstError} {other : SecondError} (related : errors error other) :
      Corresponds errors relation (.error error) (.error other)
  | success {first : First} {second : Second} (related : relation first second) :
      Corresponds errors relation (.ok first) (.ok second)

namespace Corresponds

variable {FirstError SecondError : Type} {errors : FirstError → SecondError → Prop}
  {relation : First → Second → Prop}

theorem bind {NextFirst NextSecond : Type} {next : NextFirst → NextSecond → Prop}
    {first : Except FirstError First} {second : Except SecondError Second}
    {afterFirst : First → Except FirstError NextFirst}
    {afterSecond : Second → Except SecondError NextSecond}
    (correspond : Corresponds errors relation first second)
    (goOn : ∀ one other, relation one other →
      Corresponds errors next (afterFirst one) (afterSecond other)) :
    Corresponds errors next (first >>= afterFirst) (second >>= afterSecond) := by
  cases correspond with
  | failure related => exact .failure related
  | success related => exact goOn _ _ related

theorem map {Image : Type} {first : Except FirstError First} {second : Except SecondError First}
    (correspond : Corresponds errors Eq first second) (function : First → Image) :
    Corresponds errors Eq (function <$> first) (function <$> second) := by
  cases correspond with
  | failure related => exact .failure related
  | success same => exact .success (congrArg function same)

theorem mapM {Item : Type} {function : Item → Except FirstError First}
    {other : Item → Except SecondError First}
    (each : ∀ item, Corresponds errors Eq (function item) (other item)) (items : List Item) :
    Corresponds errors Eq (items.mapM function) (items.mapM other) := by
  induction items with
  | nil => exact .success rfl
  | cons item others inductionHypothesis =>
      rw [List.mapM_cons, List.mapM_cons]
      refine (each item).bind ?_
      rintro result _ rfl
      refine inductionHypothesis.bind ?_
      rintro results _ rfl
      exact .success rfl

/-- What is related to the start stays related along items that belong together. -/
theorem foldlM {FirstItem SecondItem : Type} {items : FirstItem → SecondItem → Prop}
    {stepFirst : First → FirstItem → Except FirstError First}
    {stepSecond : Second → SecondItem → Except SecondError Second}
    (steps : ∀ one other item otherItem, relation one other → items item otherItem →
      Corresponds errors relation (stepFirst one item) (stepSecond other otherItem))
    {firstItems : List FirstItem} {secondItems : List SecondItem}
    (together : List.Forall₂ items firstItems secondItems) {start : First} {otherStart : Second}
    (related : relation start otherStart) :
    Corresponds errors relation (firstItems.foldlM stepFirst start)
      (secondItems.foldlM stepSecond otherStart) := by
  induction together generalizing start otherStart with
  | nil => exact .success related
  | cons belong _ inductionHypothesis =>
      rw [List.foldlM_cons, List.foldlM_cons]
      exact (steps _ _ _ _ related belong).bind fun one other => inductionHypothesis

end Corresponds

inductive Agree (relation : First → Second → Prop) :
    Except Error First → Except Error Second → Prop where
  | failure (error : Error) : Agree relation (.error error) (.error error)
  | success {first : First} {second : Second} (related : relation first second) :
      Agree relation (.ok first) (.ok second)

namespace Agree

variable {relation : First → Second → Prop} {first : Except Error First}
  {second : Except Error Second}

theorem self {relation : First → First → Prop} (related : ∀ value, relation value value)
    (computation : Except Error First) : Agree relation computation computation := by
  cases computation with
  | error error => exact .failure error
  | ok value => exact .success (related value)

theorem bind {NextFirst NextSecond : Type} {next : NextFirst → NextSecond → Prop}
    {afterFirst : First → Except Error NextFirst} {afterSecond : Second → Except Error NextSecond}
    (agree : Agree relation first second)
    (goOn : ∀ one other, relation one other → Agree next (afterFirst one) (afterSecond other)) :
    Agree next (first >>= afterFirst) (second >>= afterSecond) := by
  cases agree with
  | failure error => exact .failure error
  | success related => exact goOn _ _ related

theorem iff_corresponds : Agree relation first second ↔ Corresponds Eq relation first second := by
  constructor
  · intro agree
    cases agree with
    | failure error => exact .failure rfl
    | success related => exact .success related
  · intro correspond
    cases correspond with
    | failure same =>
        cases same
        exact .failure _
    | success related => exact .success related

/-- What is related to the start stays related along items that belong together. -/
theorem foldlM {FirstItem SecondItem : Type} {items : FirstItem → SecondItem → Prop}
    {stepFirst : First → FirstItem → Except Error First}
    {stepSecond : Second → SecondItem → Except Error Second}
    (steps : ∀ one other item otherItem, relation one other → items item otherItem →
      Agree relation (stepFirst one item) (stepSecond other otherItem))
    {firstItems : List FirstItem} {secondItems : List SecondItem}
    (together : List.Forall₂ items firstItems secondItems) {start : First} {otherStart : Second}
    (related : relation start otherStart) :
    Agree relation (firstItems.foldlM stepFirst start) (secondItems.foldlM stepSecond otherStart) :=
  iff_corresponds.2 <| .foldlM
    (fun one other item otherItem related belong =>
      iff_corresponds.1 (steps one other item otherItem related belong)) together related

end Agree

/-- What the first computation succeeds with, the second one succeeds with, too. -/
def Persists (first second : Except Error First) : Prop :=
  ∀ value, first = .ok value → second = .ok value

namespace Persists

theorem refl (computation : Except Error First) : Persists computation computation :=
  fun _ success => success

theorem bind {first second : Except Error First} {next nextSecond : First → Except Error Second}
    (persists : Persists first second)
    (nextPersists : ∀ value, Persists (next value) (nextSecond value)) :
    Persists (first >>= next) (second >>= nextSecond) := by
  intro result success
  obtain ⟨value, found, later⟩ := bind_eq_ok_iff.1 success
  exact bind_eq_ok_iff.2 ⟨value, persists value found, nextPersists value result later⟩

theorem map {first second : Except Error First} (persists : Persists first second)
    (function : First → Second) : Persists (function <$> first) (function <$> second) := by
  intro result success
  obtain ⟨value, found, same⟩ := map_eq_ok_iff.1 success
  exact map_eq_ok_iff.2 ⟨value, persists value found, same⟩

theorem mapM {function other : First → Except Error Second}
    (persists : ∀ item, Persists (function item) (other item)) (items : List First) :
    Persists (items.mapM function) (items.mapM other) := by
  intro results success
  have each := mapM_eq_ok_iff.1 success
  exact mapM_eq_ok_iff.2 (each.imp fun item result found => persists item result found)

theorem foldlM {step other : Second → First → Except Error Second}
    (persists : ∀ state item, Persists (step state item) (other state item)) (items : List First)
    (start : Second) : Persists (items.foldlM step start) (items.foldlM other start) := by
  induction items generalizing start with
  | nil => exact .refl _
  | cons item others inductionHypothesis =>
      rw [List.foldlM_cons, List.foldlM_cons]
      exact (persists start item).bind inductionHypothesis

end Persists

end Intel8085
