import Intel8085.Proofs.Assembly.Passes

/-!
# The pass over references

Addresses are put in at one reference after another, in the order of the blocks
(`foldlM_patchBlockCode`).  Where statements are laid out and no label is defined twice, a reference
has a label with one address, and it is refused exactly when the address does not fit
(`continues_patch`, `stops_patch`).
-/

set_option autoImplicit false

namespace Intel8085.Assembly

open Intel8085.Text Intel8085.Source

/-- The label of a use has an address that does not fit where it is used. -/
def IsTooFar (names : List String) (numbered : List NumberedStatement) (use : LabelUse) : Prop :=
  ∃ address, HasAddress names numbered use.name address ∧ 256 ^ use.width ≤ address

/-! ## Addresses -/

section Addresses

variable {names : List String} {numbered : List NumberedStatement} {name : String}

theorem label_mem_labelNames {earlier : List NumberedStatement} {one : NumberedStatement}
    {label : Label} (reached : earlier ++ [one] <+: numbered)
    (isLabel : one.statement.label = some label) : label.name ∈ labelNames numbered := by
  exact List.mem_filterMap.2 ⟨one, mem_of_reached reached, by rw [isLabel]; rfl⟩

theorem eq_of_same_label {earlier others : List NumberedStatement} {one other : NumberedStatement}
    {label otherLabel : Label} (reached : earlier ++ [one] <+: others ++ [other])
    (isLabel : one.statement.label = some label)
    (isOther : other.statement.label = some otherLabel) (same : label.name = otherLabel.name)
    (proper : ¬ BreaksLabelRule others other) : earlier = others := by
  rcases List.prefix_concat_iff.1 reached with equal | before
  · exact (List.append_inj' equal rfl).1
  · have again := label_mem_labelNames before isLabel
    rw [same] at again
    exact absurd ⟨otherLabel, isOther, Or.inr (Or.inr again)⟩ proper

/-- A label that is defined once has one address. -/
theorem hasAddress_unique (proper : NoneFails BreaksLabelRule numbered) {first second : Nat}
    (has : HasAddress names numbered name first) (hasToo : HasAddress names numbered name second) :
    first = second := by
  obtain ⟨earlier, one, label, emissions, reached, isLabel, named, emits, rfl⟩ := has
  obtain ⟨others, other, otherLabel, otherEmissions, otherReached, isOther, otherNamed, otherEmits,
    rfl⟩ := hasToo
  have same : label.name = otherLabel.name := named.trans otherNamed.symm
  -- of two definitions of the name the later one would break the rule on duplicates
  have samePlace : earlier = others := by
    rcases List.prefix_or_prefix_of_prefix reached otherReached with before | behind
    · exact eq_of_same_label before isLabel isOther same (proper others other otherReached)
    · exact (eq_of_same_label behind isOther isLabel same.symm (proper earlier one reached)).symm
  subst samePlace
  rw [emissions_unique emits otherEmits]

theorem mem_of_lookup_eq_some {Content : Type} {entries : List (String × Content)} {key : String}
    {content : Content} (found : entries.lookup key = some content) : (key, content) ∈ entries := by
  obtain ⟨front, back, rfl, _⟩ := List.lookup_eq_some_iff.1 found
  exact List.mem_append_right front List.mem_cons_self

/-- The addresses that a layout gives labels are those that they have. -/
theorem lookup_eq_some_iff_hasAddress {layout : Layout} (laysOut : LaysOut names numbered layout)
    (proper : NoneFails BreaksLabelRule numbered)
    (sameNames : layout.labels.reverse.map Prod.fst = labelNames numbered) {address : Nat} :
    layout.labels.reverse.lookup name = some address ↔ HasAddress names numbered name address := by
  have sound : ∀ other, layout.labels.reverse.lookup name = some other →
      HasAddress names numbered name other := by
    intro other found
    exact laysOut.addresses name other (List.mem_reverse.1 (mem_of_lookup_eq_some found))
  constructor
  · exact sound address
  · intro has
    have isDefined : (layout.labels.reverse.lookup name).isSome = true := by
      obtain ⟨earlier, one, label, _, reached, isLabel, named, _⟩ := has
      rw [isSome_lookup_iff, sameNames, ← named]
      exact label_mem_labelNames reached isLabel
    obtain ⟨other, found⟩ := Option.isSome_iff_exists.1 isDefined
    rw [found, hasAddress_unique proper (sound other found) has]

end Addresses

/-! ## References -/

/-- The references of blocks, each with its block. -/
def placedReferences (blocks : List PlacedBlock) : List (PlacedBlock × Reference) :=
  blocks.flatMap fun placed => placed.block.references.map fun reference => (placed, reference)

def useOf (item : PlacedBlock × Reference) : LabelUse :=
  { line := item.1.block.line, name := item.2.name, width := item.2.width }

def patchOne (order : ByteOrder) (labels : List (String × Nat)) (code : Array UInt8)
    (item : PlacedBlock × Reference) : Except Failure (Array UInt8) :=
  patchCode order labels item.1 code item.2

theorem map_useOf (blocks : List PlacedBlock) :
    (placedReferences blocks).map useOf = blocks.flatMap fun placed => placed.block.uses := by
  rw [placedReferences, List.map_flatMap]
  congr 1
  funext placed
  rw [List.map_map]
  rfl

theorem foldlM_patchBlockCode (order : ByteOrder) (labels : List (String × Nat))
    (blocks : List PlacedBlock) (code : Array UInt8) :
    blocks.foldlM (patchBlockCode order labels) code =
      (placedReferences blocks).foldlM (patchOne order labels) code := by
  induction blocks generalizing code with
  | nil => rfl
  | cons placed others inductionHypothesis =>
      have first : (placed.block.references.map fun reference => (placed, reference)).foldlM
          (patchOne order labels) code = patchBlockCode order labels code placed := by
        rw [List.foldlM_map]
        rfl
      rw [placedReferences, List.flatMap_cons, List.foldlM_append, first, List.foldlM_cons]
      congr 1
      funext middle
      exact inductionHypothesis middle

/-- The reference lies within so many bytes of code, and its label has an address. -/
structure IsPatchable (labels : List (String × Nat)) (size : Nat)
    (item : PlacedBlock × Reference) : Prop where
  proper : item.2.width = 1 ∨ item.2.width = 2
  within : item.1.address + item.2.position + item.2.width ≤ size
  named : (labels.lookup item.2.name).isSome = true

section Patch

variable {order : ByteOrder} {labels : List (String × Nat)} {size : Nat}
  {items : List (PlacedBlock × Reference)}

theorem overwriteCode_of_isPatchable {item : PlacedBlock × Reference} {code : Array UInt8}
    (patchable : IsPatchable labels size item) (whole : code.size = size) (address : Nat) :
    ∃ next, overwriteCode code (item.1.address + item.2.position)
      (immediateBytes order item.2.width address) = .ok next ∧ next.size = size := by
  have length := @length_immediateBytes order item.2.width address patchable.proper
  have fits : item.1.address + item.2.position +
      (immediateBytes order item.2.width address).length ≤ code.size := by
    rw [length, whole]
    exact patchable.within
  refine ⟨_, overwriteCode_eq_spliced fits, ?_⟩
  rw [List.size_toArray, length_spliced (by simpa using fits)]
  simpa using whole

variable {names : List String} {numbered : List NumberedStatement}
  (patchable : ∀ item ∈ items, IsPatchable labels size item)
  (addresses : ∀ name address, labels.lookup name = some address ↔
    HasAddress names numbered name address)
include patchable addresses

theorem patchOne_cases {item : PlacedBlock × Reference} (member : item ∈ items)
    {code : Array UInt8} (whole : code.size = size) :
    (¬ IsTooFar names numbered (useOf item) ∧
      ∃ next, patchOne order labels code item = .ok next ∧ next.size = size) ∨
    (IsTooFar names numbered (useOf item) ∧
      ∃ cause, patchOne order labels code item =
        .error (.refused { line := item.1.block.line, cause })) := by
  obtain ⟨address, found⟩ := Option.isSome_iff_exists.1 (patchable item member).named
  have has := (addresses item.2.name address).1 found
  rw [patchOne, patchCode, addressBytes, found]
  by_cases narrow : address < 256 ^ item.2.width
  · left
    constructor
    · rintro ⟨other, hasToo, wide⟩
      have foundToo := (addresses item.2.name other).2 hasToo
      cases Option.some.inj (found.symm.trans foundToo)
      exact Nat.not_lt_of_le wide narrow
    · simp only [if_pos narrow]
      exact overwriteCode_of_isPatchable (patchable item member) whole address
  · right
    simp only [if_neg narrow]
    exact ⟨⟨address, has, Nat.le_of_not_lt narrow⟩, _, rfl⟩

theorem continues_patch :
    Continues items (patchOne order labels) (fun _ code => code.size = size)
      fun _ item => IsTooFar names numbered (useOf item) := by
  intro earlier item code next reached whole success
  rcases patchOne_cases patchable addresses (mem_of_reached reached) whole with
    ⟨near, other, patched, otherWhole⟩ | ⟨_, cause, refused⟩
  · rw [patched] at success
    cases success
    exact ⟨near, otherWhole⟩
  · rw [refused] at success
    cases success

theorem stops_patch :
    Stops items (patchOne order labels) (fun _ code => code.size = size)
      (fun _ item => IsTooFar names numbered (useOf item))
      fun item failure => ∃ cause,
        failure = .refused { line := item.1.block.line, cause } := by
  intro earlier item code failure reached whole fails
  rcases patchOne_cases patchable addresses (mem_of_reached reached) whole with
    ⟨_, other, patched, _⟩ | ⟨far, cause, refused⟩
  · rw [patched] at fails
    cases fails
  · rw [refused] at fails
    cases fails
    exact ⟨far, cause, rfl⟩

end Patch

end Intel8085.Assembly
