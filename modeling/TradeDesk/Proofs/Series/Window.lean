import Mathlib.Data.List.DropRight
import TradeDesk.Proofs.Series.Ring

/-!
# What a ring holds of a series

A ring that was given a series element by element holds the newest of them, as many as it has room
for. What is read from its newest end is read from the end of the series.
-/

namespace TradeDesk.Ring

variable {α : Type} {r : Ring α} {capacity : Nat} {series : List α}

/-- A ring of a capacity holds the newest elements of a series, as many as it has room for. -/
structure Holds (r : Ring α) (capacity : Nat) (series : List α) : Prop where
  capacity_eq : r.capacity = capacity
  toList_eq : r.toList = series.rtake capacity

/-- A series that fits is held as a whole. -/
theorem rtake_of_length_le (h : series.length ≤ capacity) : series.rtake capacity = series := by
  rw [List.rtake, Nat.sub_eq_zero_of_le h, List.drop_zero]

/-- A new ring holds the empty series. -/
theorem holds_withCapacity (h : 0 < capacity) :
    (withCapacity capacity).Holds capacity ([] : List α) where
  capacity_eq := by
    show max capacity 1 = capacity
    omega
  toList_eq := by rw [toList_withCapacity, List.rtake_nil]

/-- A ring holds its own list. -/
theorem holds_self (r : Ring α) : r.Holds r.capacity r.toList where
  capacity_eq := rfl
  toList_eq := by rw [rtake_of_length_le (by rw [length_toList]; exact r.size_le)]

/-- There is always room for one element. -/
theorem Holds.pos (h : r.Holds capacity series) : 0 < capacity := by
  rw [← h.capacity_eq]
  exact r.capacity_pos

/-- A ring holds as many elements as the series has, or as it has room for. -/
theorem Holds.size_eq (h : r.Holds capacity series) : r.size = min capacity series.length := by
  rw [← length_toList, h.toList_eq, List.rtake, List.length_drop]
  omega

/-- A ring goes on to hold the newest elements when one is appended. -/
theorem Holds.push (h : r.Holds capacity series) (a : α) :
    (r.push a).Holds capacity (series ++ [a]) where
  capacity_eq := by rw [capacity_push, h.capacity_eq]
  toList_eq := by
    obtain ⟨n, rfl⟩ := Nat.exists_eq_succ_of_ne_zero (Nat.ne_of_gt h.pos)
    rw [toList_push, List.rtake_concat_succ, h.size_eq, h.capacity_eq, h.toList_eq]
    congr 1
    split
    · next hroom =>
      rw [rtake_of_length_le (by omega), rtake_of_length_le (by omega)]
    · next hfull =>
      rw [List.rtake, List.rtake, List.tail_drop]
      congr 1
      omega

/-- A ring goes on to hold the newest elements when the newest is overwritten. -/
theorem Holds.replaceLast (h : r.Holds capacity series) (hs : series ≠ []) (a : α) :
    (r.replaceLast a).Holds capacity (series.dropLast ++ [a]) where
  capacity_eq := by rw [capacity_replaceLast, h.capacity_eq]
  toList_eq := by
    obtain ⟨n, rfl⟩ := Nat.exists_eq_succ_of_ne_zero (Nat.ne_of_gt h.pos)
    obtain ⟨older, b, rfl⟩ := (List.eq_nil_or_concat' series).resolve_left hs
    have hsize : r.size ≠ 0 := by
      rw [h.size_eq, List.length_append, List.length_singleton]
      omega
    rw [toList_replaceLast r a hsize, h.toList_eq, List.rtake_concat_succ,
      List.rtake_concat_succ, List.dropLast_concat, List.dropLast_concat]

/-- What stands near the newest end of a ring stands there in the series. -/
theorem Holds.fromEnd? (h : r.Holds capacity series) {n : Nat} (hn : n < capacity) :
    r.fromEnd? n = series.reverse[n]? := by
  rw [fromEnd?_eq, h.toList_eq, List.rtake_eq_reverse_take_reverse, List.reverse_reverse,
    List.getElem?_take_of_lt hn]

/-- The newest elements of a ring are those of the series. -/
theorem Holds.newest (h : r.Holds capacity series) {n : Nat} (hn : n ≤ capacity) :
    r.newest n = series.reverse.take n := by
  rw [newest_eq, h.toList_eq, List.rtake_eq_reverse_take_reverse, List.reverse_reverse,
    List.take_take, Nat.min_eq_left hn]

/-- The newest element of a ring is that of the series. -/
theorem Holds.last? (h : r.Holds capacity series) : r.last? = series.getLast? := by
  rw [Ring.last?, h.fromEnd? h.pos, List.getLast?_eq_head?_reverse, List.head?_eq_getElem?]

end TradeDesk.Ring
