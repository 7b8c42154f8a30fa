import TradeDesk.Proofs.Series.Ring

/-!
# Stretches of time

The ends of a stretch of time are looked for by halving. In a ring whose elements are in the order of
their times the halving finds the place where a bound on the times begins to fail, so that the ends
are those that going through all elements one by one would find.
-/

namespace TradeDesk

variable {α : Type}

/-! ### Going through all elements -/

/-- The first and last elements of a list with two elements at least. -/
def ends? : List α → Option (α × α)
  | a :: b :: rest => some (a, (b :: rest).getLast (List.cons_ne_nil b rest))
  | _ => none

/-- A list with two elements has its first and its last for ends. -/
theorem ends?_eq (l : List α) :
    ends? l = if l.length < 2 then none else do return (← l.head?, ← l.getLast?) := by
  rcases l with _ | ⟨a, _ | ⟨b, rest⟩⟩
  · rfl
  · rfl
  · rw [if_neg (by simp), List.head?_cons, List.getLast?_cons_cons,
      List.getLast?_eq_some_getLast (List.cons_ne_nil b rest)]
    rfl

/-- The ends of the elements with a time from `start` to `stop`, found by looking at all of them. -/
def scan [Stamped α] (l : List α) (start stop : Int) : Option (α × α) :=
  ends? (l.filter fun a => decide (start ≤ stamp a ∧ stamp a ≤ stop))

/-! ### Where a condition begins to fail -/

/-- The first `k` elements of a list satisfy a condition and no others do. -/
structure Splits (l : List α) (p : α → Bool) (k : Nat) : Prop where
  le_length : k ≤ l.length
  before : ∀ a ∈ l.take k, p a = true
  past : ∀ a ∈ l.drop k, p a = false

namespace Splits

variable {l : List α} {p : α → Bool} {k : Nat}

/-- The elements that satisfy the condition. -/
theorem filter_eq (h : Splits l p k) : l.filter p = l.take k := by
  rw [← List.take_append_drop k l, List.filter_append, List.filter_eq_self.mpr h.before,
    List.filter_eq_nil_iff.mpr fun a ha ↦ Bool.eq_false_iff.mp (h.past a ha), List.append_nil,
    List.take_append_drop]

/-- The elements that do not. -/
theorem filter_not_eq (h : Splits l p k) : l.filter (!p ·) = l.drop k := by
  rw [← List.take_append_drop k l, List.filter_append,
    List.filter_eq_nil_iff.mpr fun a ha ↦ by simp [h.before a ha],
    List.filter_eq_self.mpr fun a ha ↦ by simp [h.past a ha], List.nil_append,
    List.take_append_drop]

/-- A condition splits the rest of a list where it splits the list. -/
theorem drop (h : Splits l p k) (n : Nat) : Splits (l.drop n) p (k - n) where
  le_length := by
    rw [List.length_drop]
    exact Nat.sub_le_sub_right h.le_length n
  before a ha := by
    rw [← List.drop_take] at ha
    exact h.before a (List.mem_of_mem_drop ha)
  past a ha := by
    have hk : n + (k - n) = k + (n - k) := by omega
    rw [List.drop_drop, hk, ← List.drop_drop] at ha
    exact h.past a (List.mem_of_mem_drop ha)

/-- The elements that satisfy one condition no more and another one still. -/
theorem filter_between (h : Splits l p k) {q : α → Bool} {m : Nat} (hq : Splits l q m) :
    l.filter (fun a => !p a && q a) = (l.drop k).take (m - k) := by
  rw [← (hq.drop k).filter_eq, ← h.filter_not_eq, List.filter_filter]
  apply List.filter_congr
  intro a _
  exact Bool.and_comm _ _

end Splits

/-- The ends of a stretch of a list. -/
theorem ends?_between {l : List α} {first past : Nat} (h : past ≤ l.length) :
    ends? ((l.drop first).take (past - first)) =
      if past < first + 2 then none else do return (← l[first]?, ← l[past - 1]?) := by
  have hlength : ((l.drop first).take (past - first)).length = past - first := by
    rw [List.length_take, List.length_drop]
    omega
  rw [ends?_eq, hlength]
  by_cases hp : past < first + 2
  · rw [if_pos (by omega), if_pos hp]
  · have hhead : ((l.drop first).take (past - first)).head? = l[first]? := by
      rw [List.head?_take, if_neg (by omega), List.head?_drop]
    have hlast : ((l.drop first).take (past - first)).getLast? = l[past - 1]? := by
      rw [List.getLast?_eq_getElem?, hlength, List.getElem?_take_of_lt (by omega),
        List.getElem?_drop]
      congr 1
      omega
    rw [if_neg (by omega), if_neg hp, hhead, hlast]

/-- What is related in a list is related around every position. -/
private theorem rel_around {R : α → α → Prop} {l : List α} (h : l.Pairwise R) {i : Nat}
    (hi : i < l.length) : (∀ a ∈ l.take i, R a l[i]) ∧ ∀ b ∈ l.drop (i + 1), R l[i] b := by
  rw [← List.take_append_drop i l, List.drop_eq_getElem_cons hi, List.pairwise_append] at h
  exact ⟨fun a ha ↦ h.2.2 a ha l[i] List.mem_cons_self, (List.pairwise_cons.mp h.2.1).1⟩

namespace Ring

variable [Stamped α] {r : Ring α}

/-- The elements of a ring are in the order of their times, oldest first. -/
def InOrder (r : Ring α) : Prop := r.toList.Pairwise fun a b => stamp a ≤ stamp b

omit [Stamped α] in
private theorem getElem_toList {i : Nat} (h : i < r.size) (hl : i < r.toList.length) :
    r.toList[i] = r.nth i h := by
  have hget : r.toList[i]? = some (r.nth i h) := by
    rw [getElem?_toList, get?, dif_pos h]
  exact (List.getElem?_eq_some_iff.mp hget).2

/-- Halving finds where a bound on the times begins to fail. What is known before `low` and from
`high` on is kept; in the middle the order carries the answer to one side. -/
private theorem splits_partitionPoint_between (h : r.InOrder) (before : Int → Bool)
    (hbefore : ∀ s t, s ≤ t → before t = true → before s = true) (low high : Nat)
    (hle : low ≤ high) (hhigh : high ≤ r.size)
    (hlow : ∀ a ∈ r.toList.take low, before (stamp a) = true)
    (hpast : ∀ a ∈ r.toList.drop high, before (stamp a) = false) :
    Splits r.toList (fun a => before (stamp a)) (r.partitionPoint before low high hhigh) := by
  fun_induction partitionPoint r before low high hhigh with
  | case1 low high hhigh hlt mid hmid ih =>
    have hsize : mid < r.size := by omega
    have hlength : mid < r.toList.length := by rw [length_toList]; exact hsize
    apply ih (by omega)
    · intro a ha
      rw [← List.take_append_getElem hlength, List.mem_append, List.mem_singleton,
        getElem_toList hsize] at ha
      cases ha with
      | inl hearlier =>
        have hstamp := (rel_around h hlength).1 a hearlier
        rw [getElem_toList hsize] at hstamp
        exact hbefore _ _ hstamp hmid
      | inr heq =>
        rw [heq]
        exact hmid
    · exact hpast
  | case2 low high hhigh hlt mid hmid ih =>
    have hsize : mid < r.size := by omega
    have hlength : mid < r.toList.length := by rw [length_toList]; exact hsize
    apply ih (by omega) hlow
    intro a ha
    rw [List.drop_eq_getElem_cons hlength, List.mem_cons, getElem_toList hsize] at ha
    cases ha with
    | inl heq =>
      rw [heq]
      exact Bool.eq_false_iff.mpr hmid
    | inr hlater =>
      have hstamp := (rel_around h hlength).2 a hlater
      rw [getElem_toList hsize] at hstamp
      exact Bool.eq_false_iff.mpr fun ha ↦ hmid (hbefore _ _ hstamp ha)
  | case3 low high hhigh hlt =>
    have heq : low = high := by omega
    exact ⟨by rw [length_toList]; omega, hlow, heq ▸ hpast⟩

/-- Halving the whole ring finds where a bound on the times begins to fail. -/
theorem splits_partitionPoint (h : r.InOrder) (before : Int → Bool)
    (hbefore : ∀ s t, s ≤ t → before t = true → before s = true) :
    Splits r.toList (fun a => before (stamp a))
      (r.partitionPoint before 0 r.size (Nat.le_refl _)) := by
  apply splits_partitionPoint_between h before hbefore
  · exact Nat.zero_le _
  · intro a ha
    cases ha
  · intro a ha
    rw [← length_toList, List.drop_length] at ha
    cases ha

/-- In a ring in order the ends of a stretch of time are those that looking at all elements finds. -/
theorem endsWithin?_eq (h : r.InOrder) (start stop : Int) :
    r.endsWithin? start stop = scan r.toList start stop := by
  rw [endsWithin?, scan]
  split
  · next hlt =>
    have hnone : r.toList.filter (fun a => decide (start ≤ stamp a ∧ stamp a ≤ stop)) = [] := by
      apply List.filter_eq_nil_iff.mpr
      intro a _ ha
      have := of_decide_eq_true ha
      omega
    rw [hnone]
    rfl
  · have hfirst : Splits r.toList (fun a => decide (stamp a < start))
        (r.partitionPoint (fun ts => decide (ts < start)) 0 r.size (Nat.le_refl _)) := by
      apply splits_partitionPoint h fun ts => decide (ts < start)
      intro s t hst ht
      exact decide_eq_true (Int.lt_of_le_of_lt hst (of_decide_eq_true ht))
    have hpast : Splits r.toList (fun a => decide (stamp a ≤ stop))
        (r.partitionPoint (fun ts => decide (ts ≤ stop)) 0 r.size (Nat.le_refl _)) := by
      apply splits_partitionPoint h fun ts => decide (ts ≤ stop)
      intro s t hst ht
      exact decide_eq_true (Int.le_trans hst (of_decide_eq_true ht))
    have hinside := hfirst.filter_between hpast
    simp only [Bool.decide_and, ← decide_not, Int.not_lt] at hinside ⊢
    rw [hinside, ends?_between hpast.le_length]
    simp only [getElem?_toList]

end Ring

end TradeDesk
