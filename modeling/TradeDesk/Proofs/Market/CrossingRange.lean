import Mathlib.Data.List.Rotate
import TradeDesk.Indicator.Graph
import TradeDesk.Proofs.Series.Search
import TradeDesk.Proofs.Series.Window

/-!
# Crossings of a stretch of time

Crossings are looked up from the newest back, and the search ends at the first that is too old. Where
crossings are held in the order of their times nothing that belongs to the stretch is behind that one,
so the search finds what looking at all of them would find.
-/

namespace TradeDesk

variable {α : Type}

/-- Where what satisfies a condition comes first, the search may end at the first that does not. -/
theorem takeWhile_eq_filter {l : List α} {p : α → Bool}
    (h : l.Pairwise fun a b => p b = true → p a = true) : l.takeWhile p = l.filter p := by
  induction l with
  | nil => rfl
  | cons a rest ih =>
    obtain ⟨ha, hrest⟩ := List.pairwise_cons.mp h
    by_cases hp : p a = true
    · rw [List.takeWhile_cons_of_pos hp, List.filter_cons_of_pos hp, ih hrest]
    · have hnone : rest.filter p = [] :=
        List.filter_eq_nil_iff.mpr fun b hb hpb ↦ hp (ha b hb hpb)
      rw [List.takeWhile_cons_of_neg hp, List.filter_cons_of_neg hp, hnone]

namespace Ring

/-- A ring lists what stands in its slots, from the head on. -/
theorem toList_eq_rotate (r : Ring α) : r.toList = r.slots.toList.rotate r.head := by
  apply List.ext_getElem
  · rw [length_toList, List.length_rotate, Array.length_toList]
    rfl
  · intro i hi hi'
    have hslot : r.slot i < r.slots.size := r.slot_lt (by rwa [length_toList] at hi)
    have hlist : r.toList[i] = r.slots[r.slot i] := by
      simp only [toList, List.getElem_ofFn, nth]
    rw [hlist, List.getElem_rotate, Array.getElem_toList]
    simp only [slot, Array.length_toList, Nat.add_comm]

/-- A ring lists each of its slots once. -/
theorem toList_perm (r : Ring α) : r.toList.Perm r.slots.toList := by
  rw [toList_eq_rotate]
  exact List.rotate_perm _ _

/-- A ring to which elements were appended holds the newest of them. -/
theorem Holds.foldl_push {r : Ring α} {capacity : Nat} {series : List α}
    (h : r.Holds capacity series) (l : List α) :
    (l.foldl Ring.push r).Holds capacity (series ++ l) := by
  induction l generalizing r series with
  | nil =>
    rw [List.append_nil]
    exact h
  | cons a rest ih =>
    rw [List.append_cons]
    exact ih (h.push a)

section

variable [Stamped α] {r : Ring α}

/-- In a ring in order the search from the newest element back finds what looking at all elements
finds. -/
theorem InOrder.search_back (h : r.InOrder) (start stop : Int) :
    (r.toList.reverse.takeWhile fun a => decide (start ≤ stamp a)).filter
        (fun a => decide (stamp a ≤ stop)) =
      (r.toList.filter fun a => decide (start ≤ stamp a ∧ stamp a ≤ stop)).reverse := by
  have hback : r.toList.reverse.Pairwise fun a b =>
      decide (start ≤ stamp b) = true → decide (start ≤ stamp a) = true := by
    rw [List.pairwise_reverse]
    apply List.Pairwise.imp _ h
    intro a b hab hb
    exact decide_eq_true (Int.le_trans (of_decide_eq_true hb) hab)
  rw [takeWhile_eq_filter hback, List.filter_filter, ← List.filter_reverse]
  apply List.filter_congr
  intro a _
  rw [Bool.decide_and, Bool.and_comm]

end

end Ring

namespace Graph

variable {g : Graph}

/-- Where the crossings held are in the order of their times, those of a stretch of time are found all,
each as often as it is held, newest first, and there are none where the stretch ends before it
starts. So it is at any capacity, and however many older crossings were given up: the crossings found
are those of the stretch among the last that were recorded, as many as there is room for. -/
theorem crossingsIn_of_inOrder (h : g.crossings.InOrder) (start stop : Int) :
    let found := g.crossingsIn start stop
    let inside (p : CrossPoint) := decide (start ≤ stamp p ∧ stamp p ≤ stop)
    found = (g.crossings.toList.filter inside).reverse ∧
      found.Perm (g.crossings.slots.toList.filter inside) ∧
      found.Pairwise (fun p q => stamp q ≤ stamp p) ∧
      (stop < start → found = []) ∧
      ∀ (capacity : Nat) (recorded : List CrossPoint),
        g.crossings = recorded.foldl Ring.push (.withCapacity capacity) →
        found = ((recorded.rtake (max capacity 1)).filter inside).reverse := by
  intro found inside
  have hfound : found = (g.crossings.toList.filter inside).reverse := by
    show g.crossingsIn start stop = _
    unfold crossingsIn
    split
    · next hlt =>
      have hnone : g.crossings.toList.filter inside = [] := by
        apply List.filter_eq_nil_iff.mpr
        intro p _ hp
        obtain ⟨hstart, hstop⟩ := of_decide_eq_true hp
        omega
      rw [hnone]
      rfl
    · exact h.search_back start stop
  refine ⟨hfound, ?_, ?_, ?_, ?_⟩
  · rw [hfound]
    exact (List.reverse_perm _).trans (g.crossings.toList_perm.filter _)
  · rw [hfound, List.pairwise_reverse]
    exact List.Pairwise.filter _ h
  · exact fun hlt ↦ if_pos hlt
  · intro capacity recorded hrecorded
    have hnew : (Ring.withCapacity capacity).Holds (max capacity 1) ([] : List CrossPoint) :=
      ⟨rfl, by rw [Ring.toList_withCapacity, List.rtake_nil]⟩
    have hholds := hnew.foldl_push recorded
    rw [← hrecorded, List.nil_append] at hholds
    rw [hfound, hholds.toList_eq]

/-- Lines that have crossed at some times. -/
def crossedAt (capacity : Nat) (times : List (Int64 × CrossDirection)) : Graph :=
  { empty .min5 capacity with
    crossings := (times.map fun x => ⟨x.1, 0.0, x.2⟩).foldl Ring.push (.withCapacity capacity) }

/-- With room for three of five crossings, two of which were at one time, both of these are found and
the later comes first. -/
theorem crossingsIn_of_touching :
    let g := crossedAt 3 [(900, .belowToAbove), (150, .aboveToBelow), (300, .belowToAbove),
      (300, .aboveToBelow), (450, .belowToAbove)]
    g.crossings.InOrder ∧
      g.crossingsIn 300 400 = [⟨300, 0.0, .aboveToBelow⟩, ⟨300, 0.0, .belowToAbove⟩] := by
  intro g
  have h : g.crossings.InOrder := by
    unfold Ring.InOrder
    decide
  obtain ⟨-, -, -, -, hrecorded⟩ := crossingsIn_of_inOrder h 300 400
  refine ⟨h, ?_⟩
  rw [hrecorded 3 _ rfl]
  rfl

end Graph

end TradeDesk
