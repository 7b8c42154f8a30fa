import TradeDesk.Number.Binary64

/-!
# The order of doubles

Doubles are compared by what they unpack to. What is not a number is below nothing and above nothing;
any two others are in order.
-/

namespace TradeDesk.Binary64

open Float.Model
open Float.Model.UnpackedFloat (Sign)

private theorem swap_compare_unpacked (a b : UnpackedFloat) :
    (a.compare b).map Ordering.swap = b.compare a := by
  have hmagnitude : ∀ (m n : Nat) (e f : Int), ((compare e f).then (compare m n)).swap =
      (compare f e).then (compare n m) := by
    intro m n e f
    rw [Ordering.swap_then, Int.compare_swap, Nat.compare_swap]
  rcases a with ⟨_ | _⟩ | _ | ⟨_ | _⟩ | ⟨_ | _, m, e, hm⟩ <;>
    rcases b with ⟨_ | _⟩ | _ | ⟨_ | _⟩ | ⟨_ | _, n, f, hn⟩
  all_goals first
    | rfl
    | exact congrArg some (hmagnitude m n e f)
    | exact congrArg (some ∘ Ordering.swap) (hmagnitude m n e f)

private theorem compare_unpacked_eq_none_iff (a b : UnpackedFloat) :
    a.compare b = none ↔ a.isNaN = true ∨ b.isNaN = true := by
  rcases a with ⟨_ | _⟩ | _ | ⟨_ | _⟩ | ⟨_ | _, m, e, hm⟩ <;>
    rcases b with ⟨_ | _⟩ | _ | ⟨_ | _⟩ | ⟨_ | _, n, f, hn⟩
  all_goals first
    | exact iff_of_true rfl (Or.inl rfl)
    | exact iff_of_true rfl (Or.inr rfl)
    | exact iff_of_false nofun (by rintro (h | h) <;> cases h)

/-- Comparing the other way round. -/
theorem swap_compare (x y : Float) :
    (x.toModel.compare y.toModel).map Ordering.swap = y.toModel.compare x.toModel :=
  swap_compare_unpacked _ _

/-- Only what is not a number cannot be compared. -/
theorem compare_eq_none_iff (x y : Float) :
    x.toModel.compare y.toModel = none ↔ x.isNaN = true ∨ y.isNaN = true :=
  compare_unpacked_eq_none_iff _ _

theorem lt_iff_compare (x y : Float) : x < y ↔ x.toModel.compare y.toModel = some .lt := by
  show x.lt y = true ↔ _
  rw [Float.lt, decide_eq_true_iff]
  exact beq_iff_eq

theorem le_iff_compare (x y : Float) :
    x ≤ y ↔ (x.toModel.compare y.toModel).any (·.isLE) = true := by
  show x.le y = true ↔ _
  rw [Float.le, decide_eq_true_iff]
  rfl

/-- Two doubles are in order when both are numbers and they are not the wrong way round. -/
theorem le_iff_not_lt {x y : Float} :
    x ≤ y ↔ x.isNaN = false ∧ y.isNaN = false ∧ ¬ y < x := by
  have hnone := compare_eq_none_iff x y
  rw [le_iff_compare, lt_iff_compare, ← swap_compare x y]
  cases h : x.toModel.compare y.toModel with
  | none =>
    constructor
    · intro hle
      cases hle
    · rintro ⟨hx, hy, -⟩
      cases hnone.mp h with
      | inl hn => exact absurd hn (Bool.eq_false_iff.mp hx)
      | inr hn => exact absurd hn (Bool.eq_false_iff.mp hy)
  | some o =>
    have hnum : ¬ (x.isNaN = true ∨ y.isNaN = true) := by
      intro hn
      rw [hnone.mpr hn] at h
      cases h
    have hx : x.isNaN = false := Bool.eq_false_iff.mpr fun hn ↦ hnum (Or.inl hn)
    have hy : y.isNaN = false := Bool.eq_false_iff.mpr fun hn ↦ hnum (Or.inr hn)
    rw [hx, hy]
    cases o <;> decide

/-- Of two doubles not both are below the other. -/
theorem lt_asymm {x y : Float} (h : x < y) : ¬ y < x := by
  rw [lt_iff_compare] at h ⊢
  rw [← swap_compare, h]
  exact fun hgt ↦ nomatch hgt

/-- What is below is not above. -/
theorem not_le_of_lt {x y : Float} (h : x < y) : ¬ y ≤ x :=
  fun hle ↦ (le_iff_not_lt.mp hle).2.2 h

end TradeDesk.Binary64
