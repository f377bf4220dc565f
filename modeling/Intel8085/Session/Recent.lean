/-!
# The most recent items

A queue that keeps the items last put into it, up to a limit, or all of them when the limit is zero.
Its items lie in two lists, the older ones with the oldest first and the newer ones with the newest
first, so that putting one more item in takes constant time on average.

`toList_push` says what is kept: the list of items with the new one behind it, cut down to its last
`limit` items.
-/

set_option autoImplicit false

namespace Intel8085

/-- A queue of the most recent items, of which it has at most `limit` unless the limit is zero. -/
structure Recent (Item : Type) where
  limit : Nat
  older : List Item
  newer : List Item
  size : Nat
  size_eq : size = older.length + newer.length
  size_le : limit = 0 ∨ size ≤ limit

namespace Recent

variable {Item : Type}

def empty (limit : Nat) : Recent Item where
  limit := limit
  older := []
  newer := []
  size := 0
  size_eq := rfl
  size_le := Or.inr (Nat.zero_le limit)

def toList (recent : Recent Item) : List Item :=
  recent.older ++ recent.newer.reverse

/-- The last items of a list, at most `limit` unless the limit is zero. -/
def lastItems (limit : Nat) (items : List Item) : List Item :=
  if limit = 0 then items else items.drop (items.length - limit)

def append (recent : Recent Item) (item : Item) (room : recent.limit = 0 ∨ recent.size < recent.limit) :
    Recent Item where
  limit := recent.limit
  older := recent.older
  newer := item :: recent.newer
  size := recent.size + 1
  size_eq := by
    rw [recent.size_eq, List.length_cons]
    omega
  size_le := by omega

/-- The queue with one more item in the place of the oldest, whose successors are given. -/
def replace (recent : Recent Item) (item : Item) (oldest : Item) (rest newer : List Item)
    (split : recent.older.length + recent.newer.length = (oldest :: rest).length + newer.length) :
    Recent Item where
  limit := recent.limit
  older := rest
  newer := item :: newer
  size := recent.size
  size_eq := by
    rw [recent.size_eq, split, List.length_cons, List.length_cons]
    omega
  size_le := recent.size_le

/-- The queue with one more item; when it is full the oldest item goes. -/
def push (recent : Recent Item) (item : Item) : Recent Item :=
  if room : recent.limit = 0 ∨ recent.size < recent.limit then recent.append item room
  else
    match older : recent.older with
    | oldest :: rest =>
        recent.replace item oldest rest recent.newer (by rw [older])
    | [] =>
        match reversed : recent.newer.reverse with
        | oldest :: rest =>
            recent.replace item oldest rest [] (by
              have sameLength := congrArg List.length reversed
              rw [List.length_reverse] at sameLength
              rw [older, sameLength]
              simp)
        | [] => recent

theorem length_toList (recent : Recent Item) : recent.toList.length = recent.size := by
  rw [toList, List.length_append, List.length_reverse, recent.size_eq]

theorem limit_push (recent : Recent Item) (item : Item) :
    (recent.push item).limit = recent.limit := by
  unfold push
  split
  · rfl
  · split
    · rfl
    · split <;> rfl

theorem toList_push (recent : Recent Item) (item : Item) :
    (recent.push item).toList = lastItems recent.limit (recent.toList ++ [item]) := by
  have total := recent.length_toList
  have bounded := recent.size_le
  unfold push
  split
  · rename_i room
    have kept : (recent.append item room).toList = recent.toList ++ [item] := by
      simp [append, toList]
    rw [kept, lastItems]
    split
    · rfl
    · have none : (recent.toList ++ [item]).length - recent.limit = 0 := by
        rw [List.length_append, total, List.length_singleton]
        omega
      rw [none, List.drop_zero]
  · rename_i full
    have positive : recent.limit ≠ 0 := by omega
    have exact : recent.size = recent.limit := by omega
    have one : (recent.toList ++ [item]).length - recent.limit = 1 := by
      rw [List.length_append, total, List.length_singleton]
      omega
    rw [lastItems, if_neg positive, one]
    split
    · rename_i oldest rest older
      simp [replace, toList, older]
    · rename_i older
      split
      · rename_i oldest rest reversed
        simp [replace, toList, older, reversed]
      · rename_i reversed
        have noNewer : recent.newer = [] := List.reverse_eq_nil_iff.1 reversed
        have nothing : recent.size = 0 := by
          rw [recent.size_eq, older, noNewer]
          rfl
        omega

/-! ## Last items -/

theorem lastItems_map {Other : Type} (limit : Nat) (function : Item → Other) (items : List Item) :
    (lastItems limit items).map function = lastItems limit (items.map function) := by
  rw [lastItems, lastItems, List.length_map, apply_ite (List.map function), List.map_drop]

theorem lastItems_of_length_le {limit : Nat} {items : List Item} (few : items.length ≤ limit) :
    lastItems limit items = items := by
  rw [lastItems, Nat.sub_eq_zero_of_le few, List.drop_zero, ite_self]

/-- Items that have gone are not missed later. -/
theorem lastItems_append (limit : Nat) (items more : List Item) :
    lastItems limit (lastItems limit items ++ more) = lastItems limit (items ++ more) := by
  by_cases few : items.length ≤ limit
  · rw [lastItems_of_length_le few]
  · by_cases unlimited : limit = 0
    · simp only [lastItems, if_pos unlimited]
    · have kept : items.drop (items.length - limit) ++ more =
          (items ++ more).drop (items.length - limit) :=
        (List.drop_append_of_le_length (Nat.sub_le _ _)).symm
      simp only [lastItems, if_neg unlimited]
      rw [kept, List.drop_drop, List.length_drop, List.length_append]
      congr 1
      omega

theorem lastItems_toList (recent : Recent Item) :
    lastItems recent.limit recent.toList = recent.toList := by
  rcases recent.size_le with unlimited | few
  · rw [lastItems, if_pos unlimited]
  · exact lastItems_of_length_le (Nat.le_trans (Nat.le_of_eq recent.length_toList) few)

end Recent

end Intel8085
