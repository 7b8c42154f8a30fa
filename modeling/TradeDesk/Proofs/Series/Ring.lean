import TradeDesk.Series.Ring

/-!
# The list that a ring stands for

Laws of the bounded series in terms of `toList`: appending keeps the newest elements that the ring
has room for, and overwriting the newest changes nothing else. The newest element is the last of the
list.
-/

namespace TradeDesk.Ring

variable {α : Type}

/-- A ring has room for one element at least. -/
theorem capacity_pos (r : Ring α) : 0 < r.capacity :=
  Nat.lt_of_le_of_lt (Nat.zero_le _) r.head_lt

/-- As many elements are listed as are held. -/
@[simp] theorem length_toList (r : Ring α) : r.toList.length = r.size := by
  rw [toList, List.length_ofFn]

/-- A ring is empty when its list is. -/
theorem isEmpty_eq (r : Ring α) : r.isEmpty = r.toList.isEmpty := by
  rw [Bool.eq_iff_iff, isEmpty, decide_eq_true_iff, List.isEmpty_iff_length_eq_zero, length_toList]

/-- Looking up a position looks it up in the list. -/
theorem getElem?_toList (r : Ring α) (i : Nat) : r.toList[i]? = r.get? i := by
  rw [toList, List.getElem?_ofFn, get?]

/-- A new ring holds nothing. -/
theorem toList_withCapacity (capacity : Nat) : (withCapacity (α := α) capacity).toList = [] := by
  apply List.length_eq_zero_iff.mp
  rw [length_toList]
  rfl

/-! ### Slots -/

private theorem size_slots (r : Ring α) : r.slots.size = r.size := rfl

private theorem getElem?_toList_slot (r : Ring α) {i : Nat} (h : i < r.size) :
    r.toList[i]? = r.slots[(r.head + i) % r.size]? := by
  rw [getElem?_toList, get?, dif_pos h, nth]
  exact (Array.getElem?_eq_getElem (r.slot_lt h)).symm

private theorem slot_eq {head i n : Nat} (hh : head < n) (hi : i < n) :
    (head + i) % n = if head + i < n then head + i else head + i - n := by
  split
  · next h => exact Nat.mod_eq_of_lt h
  · next h => rw [Nat.mod_eq_sub_mod (by omega), Nat.mod_eq_of_lt (by omega)]

private theorem head_lt_size (r : Ring α) (h : r.size ≠ 0) : r.head < r.size := by
  by_cases hf : r.slots.size < r.capacity
  · rw [r.head_eq hf]
    exact Nat.pos_of_ne_zero h
  · exact Nat.lt_of_lt_of_le r.head_lt (Nat.le_of_not_lt hf)

private theorem push_of_lt (r : Ring α) (a : α) (h : r.size < r.capacity) :
    (r.push a).slots = r.slots.push a ∧ (r.push a).head = 0 := by
  have hs : r.slots.size < r.capacity := h
  rw [push, dif_pos hs]
  exact ⟨rfl, r.head_eq hs⟩

private theorem push_of_full (r : Ring α) (a : α) (h : ¬ r.size < r.capacity) :
    (r.push a).slots = r.slots.setIfInBounds r.head a ∧
      (r.push a).head = (r.head + 1) % r.size := by
  have hs : ¬ r.slots.size < r.capacity := h
  have hc : r.size = r.capacity := Nat.le_antisymm r.size_le (Nat.le_of_not_lt hs)
  have hh : r.head < r.slots.size := by
    have := r.head_lt
    omega
  rw [push, dif_neg hs]
  constructor
  · rw [Array.setIfInBounds, dif_pos hh]
  · rw [hc]

private theorem replaceLast_of_ne (r : Ring α) (a : α) (h : r.size ≠ 0) :
    (r.replaceLast a).slots = r.slots.setIfInBounds ((r.head + (r.size - 1)) % r.size) a ∧
      (r.replaceLast a).head = r.head := by
  have hl : (r.head + (r.size - 1)) % r.size < r.slots.size :=
    Nat.mod_lt _ (Nat.pos_of_ne_zero h)
  rw [replaceLast, dif_neg h]
  refine ⟨?_, rfl⟩
  rw [Array.setIfInBounds, dif_pos hl]
  rfl

/-! ### Appending and overwriting -/

/-- Appending keeps the capacity. -/
theorem capacity_push (r : Ring α) (a : α) : (r.push a).capacity = r.capacity := by
  rw [push]
  split
  · rfl
  · rfl

/-- Overwriting keeps the capacity. -/
theorem capacity_replaceLast (r : Ring α) (a : α) : (r.replaceLast a).capacity = r.capacity := by
  rw [replaceLast]
  split
  · rfl
  · rfl

/-- Appending makes a ring longer while there is room. -/
theorem size_push (r : Ring α) (a : α) :
    (r.push a).size = if r.size < r.capacity then r.size + 1 else r.size := by
  split
  · next h => rw [size, (push_of_lt r a h).1, Array.size_push, size_slots]
  · next h => rw [size, (push_of_full r a h).1, Array.size_setIfInBounds, size_slots]

/-- Overwriting keeps the number of elements. -/
theorem size_replaceLast (r : Ring α) (a : α) : (r.replaceLast a).size = r.size := by
  by_cases h : r.size = 0
  · rw [replaceLast, dif_pos h]
  · rw [size, (replaceLast_of_ne r a h).1, Array.size_setIfInBounds, size_slots]

private theorem toList_push_of_lt (r : Ring α) (a : α) (h : r.size < r.capacity) :
    (r.push a).toList = r.toList ++ [a] := by
  obtain ⟨hs, hh⟩ := push_of_lt r a h
  have hn : (r.push a).size = r.size + 1 := by rw [size_push, if_pos h]
  apply List.ext_getElem?
  intro i
  by_cases hi : i < r.size + 1
  · rw [getElem?_toList_slot _ (by omega), hh, hn, hs, Nat.zero_add, Nat.mod_eq_of_lt hi,
      Array.getElem?_push, size_slots]
    by_cases hl : i = r.size
    · rw [if_pos hl, hl, List.getElem?_append_right (Nat.le_of_eq r.length_toList), length_toList,
        Nat.sub_self]
      rfl
    · have hlt : i < r.size := by omega
      rw [if_neg hl, List.getElem?_append_left (by rw [length_toList]; exact hlt),
        getElem?_toList_slot r hlt, r.head_eq h, Nat.zero_add, Nat.mod_eq_of_lt hlt]
  · rw [List.getElem?_eq_none (by rw [length_toList]; omega),
      List.getElem?_eq_none (by
        rw [List.length_append, length_toList, List.length_singleton]
        omega)]

private theorem toList_push_of_full (r : Ring α) (a : α) (h : ¬ r.size < r.capacity) :
    (r.push a).toList = r.toList.tail ++ [a] := by
  obtain ⟨hs, hh⟩ := push_of_full r a h
  have hn : (r.push a).size = r.size := by rw [size_push, if_neg h]
  have hpos : r.size ≠ 0 := by
    have := r.capacity_pos
    omega
  have hlt := r.head_lt_size hpos
  apply List.ext_getElem?
  intro i
  by_cases hi : i < r.size
  · -- The slot after the old head is the oldest now; the old head is reached after a full turn.
    have hturn : ((r.head + 1) % r.size + i) % r.size = (r.head + (i + 1)) % r.size := by
      rw [Nat.mod_add_mod]
      congr 1
      omega
    rw [getElem?_toList_slot _ (by omega), hh, hn, hs, hturn, Array.getElem?_setIfInBounds,
      size_slots]
    by_cases hl : i + 1 = r.size
    · have he : r.head = (r.head + (i + 1)) % r.size := by
        rw [hl, Nat.add_mod_right, Nat.mod_eq_of_lt hlt]
      have hz : i - (r.size - 1) = 0 := by omega
      rw [if_pos he, if_pos hlt, List.getElem?_append_right (by
        rw [List.length_tail, length_toList]
        omega), List.length_tail, length_toList, hz]
      rfl
    · have hne : ¬ r.head = (r.head + (i + 1)) % r.size := by
        rw [slot_eq hlt (by omega)]
        split <;> omega
      rw [if_neg hne, List.getElem?_append_left (by
        rw [List.length_tail, length_toList]
        omega), List.getElem?_tail, getElem?_toList_slot r (by omega)]
  · rw [List.getElem?_eq_none (by rw [length_toList]; omega),
      List.getElem?_eq_none (by
        rw [List.length_append, List.length_tail, length_toList, List.length_singleton]
        omega)]

/-- Appending drops the oldest element when there is no room for one more. -/
theorem toList_push (r : Ring α) (a : α) :
    (r.push a).toList = (if r.size < r.capacity then r.toList else r.toList.tail) ++ [a] := by
  split
  · next h => exact toList_push_of_lt r a h
  · next h => exact toList_push_of_full r a h

/-- Overwriting the newest element keeps the others. -/
theorem toList_replaceLast (r : Ring α) (a : α) (h : r.size ≠ 0) :
    (r.replaceLast a).toList = r.toList.dropLast ++ [a] := by
  obtain ⟨hs, hh⟩ := replaceLast_of_ne r a h
  have hn : (r.replaceLast a).size = r.size := r.size_replaceLast a
  have hlt := r.head_lt_size h
  apply List.ext_getElem?
  intro i
  by_cases hi : i < r.size
  · rw [getElem?_toList_slot _ (by omega), hh, hn, hs, Array.getElem?_setIfInBounds, size_slots]
    by_cases hl : i + 1 = r.size
    · have hz : r.size - 1 = i := by omega
      rw [hz, if_pos rfl, if_pos (Nat.mod_lt _ (by omega)), List.getElem?_append_right (by
        rw [List.length_dropLast, length_toList]
        omega), List.length_dropLast, length_toList, hz, Nat.sub_self]
      rfl
    · have hne : ¬ (r.head + (r.size - 1)) % r.size = (r.head + i) % r.size := by
        rw [slot_eq hlt (by omega), slot_eq hlt hi]
        split <;> split <;> omega
      have hd : i < r.size - 1 := by omega
      rw [if_neg hne, List.getElem?_append_left (by
        rw [List.length_dropLast, length_toList]
        exact hd), List.getElem?_dropLast, length_toList, if_pos hd, getElem?_toList_slot r hi]
  · rw [List.getElem?_eq_none (by rw [length_toList]; omega),
      List.getElem?_eq_none (by
        rw [List.length_append, List.length_dropLast, length_toList, List.length_singleton]
        omega)]

/-! ### The newest element -/

/-- The newest element is the last of the list. -/
theorem last?_eq_getLast? (r : Ring α) : r.last? = r.toList.getLast? := by
  rw [last?, fromEnd?, List.getLast?_eq_getElem?, length_toList, getElem?_toList, Nat.sub_zero]
  split
  · rfl
  · next h => rw [get?, dif_neg (by omega)]

/-- After an element was appended it is the newest. -/
@[simp] theorem last?_push (r : Ring α) (a : α) : (r.push a).last? = some a := by
  rw [last?_eq_getLast?, toList_push, List.getLast?_concat]

/-- After the newest element was overwritten the new one is the newest. -/
theorem last?_replaceLast (r : Ring α) (a : α) (h : r.size ≠ 0) :
    (r.replaceLast a).last? = some a := by
  rw [last?_eq_getLast?, toList_replaceLast r a h, List.getLast?_concat]

/-- Counting from the newest element counts from the end of the list. -/
theorem fromEnd?_eq (r : Ring α) (n : Nat) : r.fromEnd? n = r.toList.reverse[n]? := by
  rw [fromEnd?]
  split
  · next h =>
    rw [List.getElem?_reverse (by rw [length_toList]; exact h), length_toList, getElem?_toList]
  · next h => rw [List.getElem?_eq_none (by rw [List.length_reverse, length_toList]; omega)]

/-- The newest elements are the last of the list. -/
theorem newest_eq (r : Ring α) (n : Nat) : r.newest n = r.toList.reverse.take n := by
  rw [newest]
  induction n with
  | zero => rfl
  | succ n ih =>
    rw [List.range_succ, List.filterMap_append, ih, List.take_add_one, ← fromEnd?_eq]
    cases hn : r.fromEnd? n <;> simp [hn]

/-- A ring with a newest element is not empty. -/
theorem size_ne_zero_of_last? {r : Ring α} {a : α} (h : r.last? = some a) : r.size ≠ 0 := by
  intro hz
  rw [last?, fromEnd?, if_neg (by omega)] at h
  cases h

/-- What is held that far from the newest end is within the size. -/
theorem lt_size_of_fromEnd? {r : Ring α} {n : Nat} {a : α} (h : r.fromEnd? n = some a) :
    n < r.size := by
  by_cases hn : n < r.size
  · exact hn
  · rw [fromEnd?, if_neg hn] at h
    cases h

/-- As far from the newest end as there are elements, one is held. -/
theorem exists_of_lt_size {r : Ring α} {n : Nat} (h : n < r.size) : ∃ a, r.fromEnd? n = some a := by
  rw [fromEnd?, if_pos h, get?, dif_pos (by omega)]
  exact ⟨_, rfl⟩

/-- Appending moves every element that stays one place away from the newest end. -/
theorem fromEnd?_push_succ (r : Ring α) (a : α) {n : Nat} (h : n + 1 < r.capacity) :
    (r.push a).fromEnd? (n + 1) = r.fromEnd? n := by
  rw [fromEnd?_eq, fromEnd?_eq, toList_push, List.reverse_append, List.reverse_singleton,
    List.singleton_append, List.getElem?_cons_succ]
  split
  · rfl
  · -- The oldest element is given up, and this one is not the oldest.
    rw [← List.dropLast_reverse, List.getElem?_dropLast, List.length_reverse, length_toList,
      if_pos (by omega)]

/-- What is held behind the element appended last stood one place nearer before. -/
theorem fromEnd?_of_push {r : Ring α} {a b : α} {n : Nat}
    (h : (r.push a).fromEnd? (n + 1) = some b) : r.fromEnd? n = some b := by
  have hsize := lt_size_of_fromEnd? h
  have hle : (r.push a).size ≤ (r.push a).capacity := (r.push a).size_le
  rw [capacity_push] at hle
  rw [fromEnd?_push_succ r a (Nat.lt_of_lt_of_le hsize hle)] at h
  exact h

/-- Overwriting the newest element with itself changes nothing. -/
theorem replaceLast_of_last? {r : Ring α} {a : α} (h : r.last? = some a) : r.replaceLast a = r := by
  have hne := size_ne_zero_of_last? h
  have hlt : r.slot (r.size - 1) < r.slots.size := r.slot_lt (by omega)
  have ha : r.slots[r.slot (r.size - 1)] = a := by
    rw [last?, fromEnd?, if_pos (by omega), get?, dif_pos (by omega)] at h
    exact Option.some.inj h
  have hslots : r.slots.set (r.slot (r.size - 1)) a hlt = r.slots := by
    rw [← ha, Array.set_getElem_self]
  rw [replaceLast, dif_neg hne]
  simp only [hslots]

/-! ### What is held -/

theorem mem_of_get? {r : Ring α} {i : Nat} {a : α} (h : r.get? i = some a) : a ∈ r.toList := by
  rw [← getElem?_toList] at h
  exact List.mem_of_getElem? h

theorem mem_of_fromEnd? {r : Ring α} {n : Nat} {a : α} (h : r.fromEnd? n = some a) :
    a ∈ r.toList := by
  rw [fromEnd?_eq] at h
  exact List.mem_reverse.mp (List.mem_of_getElem? h)

/-- Once an element was appended, it and elements from before are held. -/
theorem eq_or_mem_of_mem_push {r : Ring α} {a b : α} (h : b ∈ (r.push a).toList) :
    b = a ∨ b ∈ r.toList := by
  rw [toList_push, List.mem_append, List.mem_singleton] at h
  cases h with
  | inl hb =>
    split at hb
    · exact Or.inr hb
    · exact Or.inr (List.mem_of_mem_tail hb)
  | inr hb => exact Or.inl hb

/-- Once the newest element was overwritten, the new one and elements from before are held. -/
theorem eq_or_mem_of_mem_replaceLast {r : Ring α} {a b : α} (h : b ∈ (r.replaceLast a).toList) :
    b = a ∨ b ∈ r.toList := by
  by_cases hr : r.size = 0
  · rw [replaceLast, dif_pos hr] at h
    exact Or.inr h
  · rw [toList_replaceLast r a hr, List.mem_append, List.mem_singleton] at h
    exact h.symm.imp_right fun hb ↦ (List.dropLast_sublist _).mem hb

/-- The ends of a stretch of time are held. -/
theorem mem_of_endsWithin? [Stamped α] {r : Ring α} {start stop : Int} {ends : α × α}
    (h : r.endsWithin? start stop = some ends) : ends.1 ∈ r.toList ∧ ends.2 ∈ r.toList := by
  simp only [endsWithin?] at h
  split at h
  · cases h
  · split at h
    · cases h
    · obtain ⟨head, hhead, h⟩ := Option.bind_eq_some_iff.mp h
      obtain ⟨tail, htail, h⟩ := Option.bind_eq_some_iff.mp h
      cases h
      exact ⟨mem_of_get? hhead, mem_of_get? htail⟩

end TradeDesk.Ring
