import Intel8085.Proofs.Results
import Mathlib.Data.List.Induction
import Mathlib.Data.List.Nodup

/-!
# The first failure of a fold

A fold that may fail goes through its items in order.  When what makes an item fail depends on the
item and on those before it, the fold succeeds only if no item fails (`noneFails_of_foldlM`), and
otherwise it reports the first one that does (`first_of_foldlM`).
-/

set_option autoImplicit false

namespace Intel8085

variable {Item State Error : Type}

/-- No item fails behind the items before it. -/
def NoneFails (Fails : List Item → Item → Prop) (items : List Item) : Prop :=
  ∀ earlier item, earlier ++ [item] <+: items → ¬ Fails earlier item

theorem mem_of_reached {items earlier : List Item} {item : Item}
    (reached : earlier ++ [item] <+: items) : item ∈ items :=
  reached.subset (List.mem_append_right earlier List.mem_cons_self)

theorem exists_reached {items : List Item} {item : Item} (member : item ∈ items) :
    ∃ earlier, earlier ++ [item] <+: items := by
  obtain ⟨earlier, later, rfl⟩ := List.append_of_mem member
  refine ⟨earlier, ?_⟩
  rw [List.append_cons earlier item later]
  exact List.prefix_append _ _

/-- The item is the first one that fails, and `earlier` are the items before it. -/
structure IsFirst (Fails : List Item → Item → Prop) (items earlier : List Item) (item : Item) :
    Prop where
  reached : earlier ++ [item] <+: items
  fails : Fails earlier item
  before : NoneFails Fails earlier

/-- Along a list of items a step goes on only behind an item that does not fail.  `Holds` is what
holds of the state behind the items so far. -/
def Continues (items : List Item) (step : State → Item → Except Error State)
    (Holds : List Item → State → Prop) (Fails : List Item → Item → Prop) : Prop :=
  ∀ earlier item state next, earlier ++ [item] <+: items → Holds earlier state →
    step state item = .ok next → ¬ Fails earlier item ∧ Holds (earlier ++ [item]) next

/-- Along a list of items a step stops only at an item that fails, with an error that it reports. -/
def Stops (items : List Item) (step : State → Item → Except Error State)
    (Holds : List Item → State → Prop) (Fails : List Item → Item → Prop)
    (Reports : Item → Error → Prop) : Prop :=
  ∀ earlier item state error, earlier ++ [item] <+: items → Holds earlier state →
    step state item = .error error → Fails earlier item ∧ Reports item error

theorem NoneFails.concat {Fails : List Item → Item → Prop} {front : List Item} {item : Item}
    (none : NoneFails Fails front) (passes : ¬ Fails front item) :
    NoneFails Fails (front ++ [item]) := by
  intro earlier other reached
  rcases List.prefix_concat_iff.1 reached with same | inFront
  · obtain ⟨rfl, isOther⟩ := List.append_inj' same rfl
    cases isOther
    exact passes
  · exact none earlier other inFront

theorem noneFails_nil (Fails : List Item → Item → Prop) : NoneFails Fails [] := by
  intro earlier item reached
  simp at reached

theorem IsFirst.not_noneFails {Fails : List Item → Item → Prop} {items earlier : List Item}
    {item : Item} (first : IsFirst Fails items earlier item) : ¬ NoneFails Fails items :=
  fun none => none earlier item first.reached first.fails

section Fold

variable {items : List Item} {step : State → Item → Except Error State}
  {Holds : List Item → State → Prop} {Fails : List Item → Item → Prop}
  {Reports : Item → Error → Prop} (continues : Continues items step Holds Fails)
include continues

/-- What the rest of a fold comes to when the items in front are behind it and none of them failed. -/
theorem noneFails_of_rest {rest front : List Item} {state result : State}
    (whole : front ++ rest = items) (holds : Holds front state) (none : NoneFails Fails front)
    (success : rest.foldlM step state = .ok result) : NoneFails Fails items ∧ Holds items result := by
  -- the front takes in each item that the fold goes past
  induction rest generalizing front state with
  | nil =>
      rw [List.append_nil] at whole
      subst whole
      cases pure_eq_ok_iff.1 success
      exact ⟨none, holds⟩
  | cons item others inductionHypothesis =>
      rw [List.append_cons] at whole
      rw [List.foldlM_cons, bind_eq_ok_iff] at success
      obtain ⟨next, stepped, later⟩ := success
      obtain ⟨passes, nextHolds⟩ := continues front item state next ⟨others, whole⟩ holds stepped
      exact inductionHypothesis whole nextHolds (none.concat passes) later

theorem first_of_rest (stops : Stops items step Holds Fails Reports) {rest front : List Item}
    {state : State} {error : Error} (whole : front ++ rest = items) (holds : Holds front state)
    (none : NoneFails Fails front) (failure : rest.foldlM step state = .error error) :
    ∃ earlier item, IsFirst Fails items earlier item ∧ Reports item error := by
  induction rest generalizing front state with
  | nil => cases failure
  | cons item others inductionHypothesis =>
      rw [List.append_cons] at whole
      have reached : front ++ [item] <+: items := ⟨others, whole⟩
      rw [List.foldlM_cons, bind_eq_error_iff] at failure
      rcases failure with stopped | ⟨next, stepped, later⟩
      · obtain ⟨fails, reports⟩ := stops front item state error reached holds stopped
        exact ⟨front, item, ⟨reached, fails, none⟩, reports⟩
      · obtain ⟨passes, nextHolds⟩ := continues front item state next reached holds stepped
        exact inductionHypothesis whole nextHolds (none.concat passes) later

variable {state : State} (start : Holds [] state)
include start

theorem noneFails_of_foldlM {result : State} (success : items.foldlM step state = .ok result) :
    NoneFails Fails items ∧ Holds items result :=
  noneFails_of_rest continues (List.nil_append items) start (noneFails_nil Fails) success

theorem first_of_foldlM (stops : Stops items step Holds Fails Reports) {error : Error}
    (failure : items.foldlM step state = .error error) :
    ∃ earlier item, IsFirst Fails items earlier item ∧ Reports item error :=
  first_of_rest continues stops (List.nil_append items) start (noneFails_nil Fails) failure

end Fold

theorem noneFails_concat_iff {Fails : List Item → Item → Prop} {front : List Item} {item : Item} :
    NoneFails Fails (front ++ [item]) ↔ NoneFails Fails front ∧ ¬ Fails front item := by
  constructor
  · intro none
    refine ⟨?_, none front item List.prefix_rfl⟩
    intro earlier other reached
    exact none earlier other (reached.trans (List.prefix_append front [item]))
  · rintro ⟨none, passes⟩
    exact none.concat passes

theorem noneFails_or_iff {Fails Breaks : List Item → Item → Prop} {items : List Item} :
    NoneFails (fun earlier item => Fails earlier item ∨ Breaks earlier item) items ↔
      NoneFails Fails items ∧ NoneFails Breaks items := by
  simp only [NoneFails, not_or]
  constructor
  · intro neither
    exact ⟨fun earlier item reached => (neither earlier item reached).1,
      fun earlier item reached => (neither earlier item reached).2⟩
  · rintro ⟨noneFails, noneBreaks⟩ earlier item reached
    exact ⟨noneFails earlier item reached, noneBreaks earlier item reached⟩

/-- No item repeats the key of an earlier one exactly when all keys are different. -/
theorem noneFails_repeats_iff {Key : Type} {key : Item → Key} {items : List Item} :
    NoneFails (fun earlier item => key item ∈ earlier.map key) items ↔ (items.map key).Nodup := by
  induction items using List.reverseRecOn with
  | nil => exact ⟨fun _ => List.nodup_nil, fun _ => noneFails_nil _⟩
  | append_singleton front item inductionHypothesis =>
      rw [noneFails_concat_iff, inductionHypothesis, List.map_append, List.map_singleton,
        ← List.concat_eq_append, List.nodup_concat, and_comm]

/-! ## Items that fail on their own -/

section Alone

variable {Image : Type} {Fails : Image → Prop}

theorem noneFails_iff_forall {items : List Image} :
    NoneFails (fun _ => Fails) items ↔ ∀ item ∈ items, ¬ Fails item := by
  constructor
  · intro none item member
    obtain ⟨earlier, reached⟩ := exists_reached member
    exact none earlier item reached
  · intro never earlier item reached
    exact never item (mem_of_reached reached)

theorem noneFails_map_iff {image : Item → Image} {items : List Item} :
    NoneFails (fun _ => Fails) (items.map image) ↔
      NoneFails (fun _ item => Fails (image item)) items := by
  rw [noneFails_iff_forall, noneFails_iff_forall, List.forall_mem_map]

theorem IsFirst.map {image : Item → Image} {items earlier : List Item} {item : Item}
    (first : IsFirst (fun _ item => Fails (image item)) items earlier item) :
    IsFirst (fun _ => Fails) (items.map image) (earlier.map image) (image item) where
  reached := by
    have mapped := first.reached.map image
    rwa [List.map_append, List.map_singleton] at mapped
  fails := first.fails
  before := noneFails_map_iff.2 first.before

end Alone

end Intel8085
