/-!
# Bounded series

A `Ring` keeps the newest elements of a series in an array that grows up to the capacity and is then
overwritten in place, oldest slot first. `toList` is what it stands for, oldest element first. The
shape of the array is part of the type, so every access is within bounds.

Spec: `SPEC_FULL.md` §4.1, and §9 for the array with its head. Follows `Ring` of `series::ring`.
-/

namespace TradeDesk

/-- A value that carries a time in seconds. -/
class Stamped (α : Type) where
  stamp : α → Int

export Stamped (stamp)

/-- At most `capacity` elements; `head` is the slot of the oldest once all slots are taken. -/
structure Ring (α : Type) where
  capacity : Nat
  slots : Array α
  head : Nat
  size_le : slots.size ≤ capacity
  head_lt : head < capacity
  head_eq : slots.size < capacity → head = 0

namespace Ring

variable {α : Type}

/-- An empty ring, with room for one element at least. -/
def withCapacity (capacity : Nat) : Ring α where
  capacity := max capacity 1
  slots := #[]
  head := 0
  size_le := Nat.zero_le _
  head_lt := by omega
  head_eq _ := rfl

/-- How many elements are held. -/
def size (r : Ring α) : Nat := r.slots.size

def isEmpty (r : Ring α) : Bool := r.size = 0

/-- The slot of the element at logical position `i`, the oldest being at zero. -/
def slot (r : Ring α) (i : Nat) : Nat := (r.head + i) % r.slots.size

theorem slot_lt (r : Ring α) {i : Nat} (h : i < r.size) : r.slot i < r.slots.size :=
  Nat.mod_lt _ (Nat.lt_of_le_of_lt (Nat.zero_le i) h)

/-- Appends an element; a full ring gives up its oldest. -/
def push (r : Ring α) (a : α) : Ring α :=
  if h : r.slots.size < r.capacity then
    { capacity := r.capacity
      slots := r.slots.push a
      head := r.head
      size_le := by rw [Array.size_push]; omega
      head_lt := r.head_lt
      head_eq := fun _ => r.head_eq h }
  else
    have full : r.head < r.slots.size := by have := r.head_lt; omega
    { capacity := r.capacity
      slots := r.slots.set r.head a full
      head := (r.head + 1) % r.capacity
      size_le := by simpa using r.size_le
      head_lt := Nat.mod_lt _ (Nat.lt_of_le_of_lt (Nat.zero_le _) r.head_lt)
      head_eq := fun h' => absurd (by simpa using h') h }

/-- The element at logical position `i`, which must be held. -/
def nth (r : Ring α) (i : Nat) (h : i < r.size) : α :=
  have := r.slot_lt h
  r.slots[r.slot i]

/-- The element at logical position `i`, the oldest being at zero. -/
def get? (r : Ring α) (i : Nat) : Option α :=
  if h : i < r.size then some (r.nth i h) else none

/-- The element `n` places before the newest. Follows `Ring::nth_from_end`. -/
def fromEnd? (r : Ring α) (n : Nat) : Option α :=
  if n < r.size then r.get? (r.size - 1 - n) else none

def first? (r : Ring α) : Option α := r.get? 0

def last? (r : Ring α) : Option α := r.fromEnd? 0

/-- Overwrites the newest element; an empty ring stays as it is. Follows `Ring::replace_last`. -/
def replaceLast (r : Ring α) (a : α) : Ring α :=
  if h : r.size = 0 then r
  else
    { capacity := r.capacity
      slots := r.slots.set (r.slot (r.size - 1)) a (r.slot_lt (by omega))
      head := r.head
      size_le := by simpa using r.size_le
      head_lt := r.head_lt
      head_eq := fun h' => r.head_eq (by simpa using h') }

/-- The elements, oldest first. -/
def toList (r : Ring α) : List α := List.ofFn fun i : Fin r.size => r.nth i i.2

/-- The newest `n` elements, newest first. -/
def newest (r : Ring α) (n : Nat) : List α := (List.range n).filterMap r.fromEnd?

/-- The first position in `[low, high)` whose time does not satisfy `before`, found by halving; it
is `high` when all do. Follows `Ring::partition`. -/
def partitionPoint [Stamped α] (r : Ring α) (before : Int → Bool) (low high : Nat)
    (h : high ≤ r.size) : Nat :=
  if hlt : low < high then
    let mid := low + (high - low) / 2
    if before (stamp (r.nth mid (by omega))) then
      partitionPoint r before (mid + 1) high h
    else partitionPoint r before low mid (by omega)
  else low
termination_by high - low

/-- The first and last elements with a time from `start` to `stop`, if there are two at least. The
elements are taken to be in the order of their times. Follows `Ring::range_endpoints`. -/
def endsWithin? [Stamped α] (r : Ring α) (start stop : Int) : Option (α × α) :=
  if stop < start then none
  else
    let first := r.partitionPoint (fun ts => decide (ts < start)) 0 r.size (Nat.le_refl _)
    let past := r.partitionPoint (fun ts => decide (ts ≤ stop)) 0 r.size (Nat.le_refl _)
    if past < first + 2 then none
    else do
      let head ← r.get? first
      let tail ← r.get? (past - 1)
      return (head, tail)

end Ring

end TradeDesk
