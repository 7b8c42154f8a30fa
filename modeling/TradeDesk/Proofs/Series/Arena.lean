import TradeDesk.Proofs.Series.Window

/-!
# The arena of a ring

A ring addresses the slots of its array by remainders, and nothing but its invariants keeps the
addresses within the array. Here the same operations run on the bare array and give no result where
a slot outside of it is addressed or a remainder by zero is taken. A new arena never comes to that:
after any changes it answers as the list of the newest elements does, and so does the ring.
-/

namespace TradeDesk

variable {α : Type}

/-- A change of a bounded series. -/
inductive RingAct (α : Type) where
  | push (a : α)
  | replaceLast (a : α)

namespace RingAct

/-- A ring after a change. -/
def ring (r : Ring α) : RingAct α → Ring α
  | push a => r.push a
  | replaceLast a => r.replaceLast a

/-- A list of at most `limit` elements after a change, and whether there was a last element to
replace if that was asked. -/
def list (limit : Nat) (l : List α) : RingAct α → Option Bool × List α
  | push a => (none, (l ++ [a]).rtake limit)
  | replaceLast a => if l.isEmpty then (some false, l) else (some true, l.dropLast ++ [a])

/-- A list after changes, with the answer to each of them. -/
def lists (limit : Nat) (l : List α) : List (RingAct α) → List (Option Bool) × List α
  | [] => ([], l)
  | act :: rest =>
    let (answer, l) := act.list limit l
    let (answers, l) := lists limit l rest
    (answer :: answers, l)

end RingAct

/-! ### Bare arenas -/

/-- What a ring consists of, without what holds of it. -/
structure Arena (α : Type) where
  capacity : Nat
  slots : Array α
  head : Nat

/-- A remainder; there is none by zero. -/
def remainder? (m n : Nat) : Option Nat := if n = 0 then none else some (m % n)

namespace Arena

/-- An empty arena, with room for one element at least. -/
def withCapacity (capacity : Nat) : Arena α := ⟨max capacity 1, #[], 0⟩

/-- The slot of the element at logical position `i`. -/
def slot? (x : Arena α) (i : Nat) : Option Nat := remainder? (x.head + i) x.slots.size

/-- Reads the slot of a logical position. -/
def read? (x : Arena α) (i : Nat) : Option α := do x.slots[← x.slot? i]?

/-- Overwrites a slot. -/
def write? (x : Arena α) (slot : Nat) (a : α) : Option (Arena α) :=
  if h : slot < x.slots.size then some { x with slots := x.slots.set slot a h } else none

/-- Appends an element; a full arena gives up its oldest. -/
def push? (x : Arena α) (a : α) : Option (Arena α) :=
  if x.slots.size < x.capacity then some { x with slots := x.slots.push a }
  else do
    let x ← x.write? x.head a
    return { x with head := ← remainder? (x.head + 1) x.capacity }

/-- Overwrites the newest element, if there is one, and says so. -/
def replaceLast? (x : Arena α) (a : α) : Option (Bool × Arena α) :=
  if x.slots.size = 0 then some (false, x)
  else do
    let x ← x.write? (← x.slot? (x.slots.size - 1)) a
    return (true, x)

/-- The element at logical position `i`, the oldest being at zero. -/
def get? (x : Arena α) (i : Nat) : Option (Option α) :=
  if x.slots.size ≤ i then some none else (x.read? i).map some

/-- The element `n` places before the newest. -/
def fromEnd? (x : Arena α) (n : Nat) : Option (Option α) :=
  if x.slots.size ≤ n then some none else x.get? (x.slots.size - 1 - n)

/-- The elements, oldest first. -/
def forwards? (x : Arena α) : Option (List α) := (List.range x.slots.size).mapM x.read?

/-- The elements, newest first. -/
def backwards? (x : Arena α) : Option (List α) := (List.range x.slots.size).reverse.mapM x.read?

/-- An arena after a change. -/
def act? (x : Arena α) : RingAct α → Option (Option Bool × Arena α)
  | .push a => do return (none, ← x.push? a)
  | .replaceLast a => do
    let (replaced, x) ← x.replaceLast? a
    return (some replaced, x)

/-- An arena after changes, with the answer to each of them. -/
def acts? (x : Arena α) : List (RingAct α) → Option (List (Option Bool) × Arena α)
  | [] => some ([], x)
  | act :: rest => do
    let (answer, x) ← x.act? act
    let (answers, x) ← x.acts? rest
    return (answer :: answers, x)

end Arena

/-! ### The arena of a ring -/

namespace Ring

/-- The arena of a ring. -/
def arena (r : Ring α) : Arena α := ⟨r.capacity, r.slots, r.head⟩

/-- The first change meets an arena without slots. -/
theorem arena_withCapacity (capacity : Nat) :
    (withCapacity capacity : Ring α).arena = .withCapacity capacity := rfl

variable (r : Ring α)

private theorem size_arena : r.arena.slots.size = r.size := rfl

/-- While there is room, the next slot is a new one; then the slot at the head is the oldest. -/
theorem push?_arena (a : α) : r.arena.push? a = some (r.push a).arena := by
  unfold Arena.push? Ring.push
  by_cases h : r.slots.size < r.capacity
  · have hroom : r.arena.slots.size < r.arena.capacity := h
    rw [if_pos hroom, dif_pos h]
    rfl
  · have hhead : r.head < r.slots.size := Nat.lt_of_lt_of_le r.head_lt (Nat.not_lt.mp h)
    have hcapacity : r.capacity ≠ 0 := Nat.ne_of_gt r.capacity_pos
    have hfull : ¬ r.arena.slots.size < r.arena.capacity := h
    rw [if_neg hfull, dif_neg h]
    simp [Arena.write?, remainder?, arena, hhead, hcapacity]

private theorem slot?_arena {i : Nat} (h : i < r.size) : r.arena.slot? i = some (r.slot i) := by
  apply if_neg
  rw [size_arena]
  omega

private theorem read?_arena {i : Nat} (h : i < r.size) : r.arena.read? i = some (r.nth i h) := by
  rw [Arena.read?, slot?_arena r h]
  exact Array.getElem?_eq_getElem (r.slot_lt h)

/-- The newest element is in the slot before the head. -/
theorem replaceLast?_arena (a : α) :
    r.arena.replaceLast? a = some (!r.isEmpty, (r.replaceLast a).arena) := by
  rw [Arena.replaceLast?, Ring.replaceLast, Ring.isEmpty, size_arena]
  by_cases h : r.size = 0
  · rw [if_pos h, dif_pos h, decide_eq_true h]
    rfl
  · have hlast : r.size - 1 < r.size := by omega
    rw [if_neg h, dif_neg h, slot?_arena r hlast]
    simp [Arena.write?, arena, r.slot_lt hlast, h]

/-- Looking up a position reads a slot of the arena. -/
theorem get?_arena (i : Nat) : r.arena.get? i = some (r.get? i) := by
  rw [Arena.get?, Ring.get?, size_arena]
  by_cases h : i < r.size
  · rw [if_neg (Nat.not_le.mpr h), dif_pos h, read?_arena r h]
    rfl
  · rw [if_pos (Nat.not_lt.mp h), dif_neg h]

/-- Counting from the newest element reads a slot of the arena. -/
theorem fromEnd?_arena (n : Nat) : r.arena.fromEnd? n = some (r.fromEnd? n) := by
  rw [Arena.fromEnd?, Ring.fromEnd?, size_arena]
  by_cases h : n < r.size
  · rw [if_neg (Nat.not_le.mpr h), if_pos h]
    exact get?_arena r _
  · rw [if_pos (Nat.not_lt.mp h), if_neg h]

private theorem mapM_read?_arena {is : List Nat} (h : ∀ i ∈ is, i < r.size) :
    is.mapM r.arena.read? = some (is.filterMap r.get?) := by
  induction is with
  | nil => rfl
  | cons i rest ih =>
    have hi : i < r.size := h i List.mem_cons_self
    have hget : r.get? i = some (r.nth i hi) := dif_pos hi
    rw [List.mapM_cons, read?_arena r hi, ih fun j hj ↦ h j (List.mem_cons_of_mem i hj),
      List.filterMap_cons_some hget]
    rfl

private theorem filterMap_get?_range (n : Nat) :
    (List.range n).filterMap r.get? = r.toList.take n := by
  induction n with
  | zero => rfl
  | succ n ih =>
    rw [List.range_succ, List.filterMap_append, ih, List.take_add_one, getElem?_toList]
    cases hn : r.get? n <;> simp [hn]

private theorem filterMap_get?_all : (List.range r.size).filterMap r.get? = r.toList := by
  rw [filterMap_get?_range, ← length_toList, List.take_length]

/-- Going through the elements reads slots of the arena. -/
theorem forwards?_arena : r.arena.forwards? = some r.toList := by
  rw [Arena.forwards?, size_arena, mapM_read?_arena r fun i hi ↦ List.mem_range.mp hi,
    filterMap_get?_all]

/-- Going through the elements backwards reads slots of the arena. -/
theorem backwards?_arena : r.arena.backwards? = some r.toList.reverse := by
  rw [Arena.backwards?, size_arena,
    mapM_read?_arena r fun i hi ↦ List.mem_range.mp (List.mem_reverse.mp hi),
    List.filterMap_reverse, filterMap_get?_all]

end Ring

/-! ### Changes -/

namespace RingAct

variable (r : Ring α)

/-- A change of a ring is one of its list. -/
theorem toList_ring (act : RingAct α) :
    (act.ring r).toList = (act.list r.capacity r.toList).2 := by
  cases act with
  | push a => exact (r.holds_self.push a).toList_eq
  | replaceLast a =>
    rw [ring, list, ← r.isEmpty_eq]
    by_cases h : r.size = 0
    · rw [Ring.isEmpty, if_pos (decide_eq_true h), Ring.replaceLast, dif_pos h]
    · rw [Ring.isEmpty, decide_eq_false h]
      exact Ring.toList_replaceLast r a h

/-- A change keeps the capacity. -/
theorem capacity_ring (act : RingAct α) : (act.ring r).capacity = r.capacity := by
  cases act with
  | push a => exact r.capacity_push a
  | replaceLast a => exact r.capacity_replaceLast a

/-- A change of a ring addresses slots of its arena, and has the answer of its list. -/
theorem act?_arena (act : RingAct α) :
    r.arena.act? act = some ((act.list r.capacity r.toList).1, (act.ring r).arena) := by
  cases act with
  | push a => rw [Arena.act?, Ring.push?_arena]; rfl
  | replaceLast a =>
    rw [Arena.act?, Ring.replaceLast?_arena, list, ← r.isEmpty_eq]
    cases r.isEmpty with
    | true => rfl
    | false => rfl

/-- Changes of a ring address slots of its arena, and have the answers of its list. -/
theorem acts?_arena (acts : List (RingAct α)) :
    (acts.foldl ring r).toList = (lists r.capacity r.toList acts).2 ∧
      r.arena.acts? acts = some ((lists r.capacity r.toList acts).1, (acts.foldl ring r).arena) := by
  induction acts generalizing r with
  | nil => exact ⟨rfl, rfl⟩
  | cons act rest ih =>
    have hrest := ih (act.ring r)
    rw [capacity_ring, toList_ring] at hrest
    refine ⟨hrest.1, ?_⟩
    rw [Arena.acts?, act?_arena]
    simp only [Option.bind_eq_bind, Option.bind_some, hrest.2]
    rfl

end RingAct

/-- After any changes a ring answers as the list of the newest elements does, and no slot outside of
its arena is ever addressed. -/
theorem Ring.answers_as_newest (capacity : Nat) (acts : List (RingAct α)) :
    let r := acts.foldl RingAct.ring (withCapacity capacity)
    let l := (RingAct.lists (max capacity 1) [] acts).2
    (Arena.withCapacity capacity).acts? acts =
        some ((RingAct.lists (max capacity 1) [] acts).1, r.arena) ∧
      r.size = l.length ∧ r.isEmpty = l.isEmpty ∧
      (∀ i, r.get? i = l[i]? ∧ r.arena.get? i = some l[i]?) ∧
      (∀ n, r.fromEnd? n = l.reverse[n]? ∧ r.arena.fromEnd? n = some l.reverse[n]?) ∧
      r.first? = l.head? ∧ r.last? = l.getLast? ∧
      (r.toList = l ∧ r.arena.forwards? = some l) ∧
      (r.newest r.size = l.reverse ∧ r.arena.backwards? = some l.reverse) := by
  intro r l
  obtain ⟨hlist, harena⟩ := RingAct.acts?_arena (withCapacity capacity : Ring α) acts
  have hl : r.toList = l := by
    rw [hlist, toList_withCapacity]
    rfl
  rw [toList_withCapacity, arena_withCapacity] at harena
  refine ⟨harena, ?_, ?_, fun i ↦ ⟨?_, ?_⟩, fun n ↦ ⟨?_, ?_⟩, ?_, ?_, ⟨hl, ?_⟩, ?_, ?_⟩
  · rw [← hl, length_toList]
  · rw [← hl, isEmpty_eq]
  · rw [← hl, getElem?_toList]
  · rw [← hl, getElem?_toList, get?_arena]
  · rw [← hl, fromEnd?_eq]
  · rw [← hl, ← fromEnd?_eq, fromEnd?_arena]
  · rw [← hl, List.head?_eq_getElem?, getElem?_toList, first?]
  · rw [← hl, last?_eq_getLast?]
  · rw [← hl, forwards?_arena]
  · rw [← hl, newest_eq, ← length_toList, ← List.length_reverse, List.take_length]
  · rw [← hl, backwards?_arena]

end TradeDesk
