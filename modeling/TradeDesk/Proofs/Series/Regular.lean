import TradeDesk.Proofs.Series.Search

/-!
# Evenly spaced elements

Where the elements of a ring are a fixed time apart, a stretch of time that ends with the newest is a
number of elements. Its ends are the newest element and the one that many places before it, or the
oldest where not that many are held.
-/

namespace TradeDesk.Ring

variable {α : Type} [Stamped α] {r : Ring α} {a : α} {stop step : Int}

/-- The elements are `step` seconds apart, and the newest is of the time `stop`. -/
def Regular (r : Ring α) (stop step : Int) : Prop :=
  ∀ n a, r.fromEnd? n = some a → stamp a = stop - n * step

/-- Nothing is held at a wrong time in an empty ring. -/
theorem regular_of_size_eq_zero (h : r.size = 0) (stop step : Int) : r.Regular stop step := by
  intro n a ha
  have := lt_size_of_fromEnd? ha
  omega

/-- An element one step after the newest can be appended. -/
theorem Regular.push (h : r.Regular stop step) (ha : stamp a = stop + step) :
    (r.push a).Regular (stamp a) step := by
  intro n b hb
  cases n with
  | zero =>
    have hnewest : (r.push a).fromEnd? 0 = some a := last?_push r a
    cases hnewest.symm.trans hb
    rw [Int.natCast_zero, Int.zero_mul, Int.sub_zero]
  | succ n =>
    rw [h n b (fromEnd?_of_push hb), ha, Int.natCast_succ, Int.add_mul]
    omega

/-- The time of the element at a position, the oldest being at zero. -/
theorem Regular.stamp_eq (h : r.Regular stop step) {i : Nat} (ha : r.toList[i]? = some a) :
    stamp a = stop - (r.size - 1 - i : Nat) * step := by
  have hi : i < r.size := by
    rw [← length_toList]
    exact (List.getElem?_eq_some_iff.mp ha).1
  apply h
  have hback : r.size - 1 - (r.size - 1 - i) = i := by omega
  rw [fromEnd?, if_pos (by omega), hback, ← getElem?_toList]
  exact ha

/-- Evenly spaced elements are in the order of their times. -/
theorem Regular.inOrder (h : r.Regular stop step) (hstep : 0 < step) : r.InOrder := by
  apply List.pairwise_iff_getElem.mpr
  intro i j hi hj hij
  rw [h.stamp_eq (List.getElem?_eq_getElem hi), h.stamp_eq (List.getElem?_eq_getElem hj)]
  have hplaces : ((r.size - 1 - j : Nat) : Int) ≤ (r.size - 1 - i : Nat) := by omega
  have := Int.mul_le_mul_of_nonneg_right hplaces (Int.le_of_lt hstep)
  omega

/-- Of evenly spaced elements the newest `k` and one more come no earlier than `k` steps before the
newest, and all others do. -/
theorem Regular.splits (h : r.Regular stop step) (hstep : 0 < step) (k : Nat) :
    Splits r.toList (fun a => decide (stamp a < stop - k * step)) (r.size - 1 - k) where
  le_length := by
    rw [length_toList]
    omega
  before a ha := by
    obtain ⟨i, hi, rfl⟩ := List.mem_take_iff_getElem.mp ha
    have hplaces : (k : Int) < (r.size - 1 - i : Nat) := by omega
    have := Int.mul_lt_mul_of_pos_right hplaces hstep
    apply decide_eq_true
    rw [h.stamp_eq (List.getElem?_eq_getElem _)]
    omega
  past a ha := by
    obtain ⟨i, hi, rfl⟩ := List.mem_drop_iff_getElem.mp ha
    have hplaces : ((r.size - 1 - (r.size - 1 - k + i) : Nat) : Int) ≤ k := by omega
    have := Int.mul_le_mul_of_nonneg_right hplaces (Int.le_of_lt hstep)
    apply decide_eq_false
    rw [h.stamp_eq (List.getElem?_eq_getElem _)]
    omega

/-- The ends of the last `k` steps are the newest element and the one `k` places before it, or the
oldest where not that many are held. A stretch of no step has no ends, and neither has one element. -/
theorem Regular.endsWithin?_eq (h : r.Regular stop step) (hstep : 0 < step) (k : Nat) :
    r.endsWithin? (stop - k * step) stop =
      if 1 ≤ k ∧ 2 ≤ r.size then do return (← r.fromEnd? (min k (r.size - 1)), ← r.fromEnd? 0)
      else none := by
  have hinside : r.toList.filter (fun a => decide (stop - k * step ≤ stamp a ∧ stamp a ≤ stop)) =
      r.toList.drop (r.size - 1 - k) := by
    rw [← (h.splits hstep k).filter_not_eq]
    apply List.filter_congr
    intro a ha
    obtain ⟨i, hi⟩ := List.getElem?_of_mem ha
    have hplaces : 0 ≤ ((r.size - 1 - i : Nat) : Int) * step :=
      Int.mul_nonneg (Int.natCast_nonneg _) (Int.le_of_lt hstep)
    have hstop : stamp a ≤ stop := by
      rw [h.stamp_eq hi]
      omega
    simp only [hstop, and_true, ← decide_not, Int.not_lt]
  have hlength : (r.toList.drop (r.size - 1 - k)).length = min r.size (k + 1) := by
    rw [List.length_drop, length_toList]
    omega
  rw [Ring.endsWithin?_eq (h.inOrder hstep), scan, hinside, ends?_eq, hlength]
  by_cases henough : 1 ≤ k ∧ 2 ≤ r.size
  · have hplace : r.size - 1 - min k (r.size - 1) = r.size - 1 - k := by omega
    have hhead : (r.toList.drop (r.size - 1 - k)).head? = r.fromEnd? (min k (r.size - 1)) := by
      rw [List.head?_drop, getElem?_toList, fromEnd?, if_pos (by omega), hplace]
    have hlast : (r.toList.drop (r.size - 1 - k)).getLast? = r.fromEnd? 0 := by
      rw [List.getLast?_drop, if_neg (by rw [length_toList]; omega), ← last?_eq_getLast?, last?]
    rw [if_neg (by omega), if_pos henough, hhead, hlast]
  · rw [if_pos (by omega), if_neg henough]

end TradeDesk.Ring
