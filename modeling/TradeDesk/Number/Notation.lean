import TradeDesk.Number.Shortest

/-!
# How numbers are written

Two layouts of a double's shortest decimal. The wire layout always shows a point or an exponent, so
that a double never looks like an integer: positional from `10^-5` up to below `10^16`, scientific
elsewhere; of two shortest decimals equally near it takes the one with an even last digit. The plain
layout, used where settings turn a number into text, is positional throughout and writes a whole
number without a point; of two equally near it takes the greater in size.
-/

namespace TradeDesk

namespace Decimal

private def zeros (n : Nat) : List Char := List.replicate n '0'

/-- Positional digits: `whole` stands after a value that has no fractional digits. -/
def positional (d : Decimal) (whole : List Char) : List Char :=
  let digits := d.text
  match d.exponent with
  | .ofNat n => digits ++ zeros n ++ whole
  | .negSucc m =>
    let places := m + 1
    if places < digits.length then
      digits.take (digits.length - places) ++ '.' :: digits.drop (digits.length - places)
    else '0' :: '.' :: zeros (places - digits.length) ++ digits

/-- An integer with its sign always written. -/
private def signed (e : Int) : List Char :=
  match e with
  | .ofNat n => '+' :: Nat.toDigits 10 n
  | .negSucc n => '-' :: Nat.toDigits 10 (n + 1)

/-- One digit, the others after a point, and the exponent of the first. -/
def scientific (d : Decimal) : List Char :=
  match d.text with
  | [] => []
  | [c] => c :: 'e' :: signed d.leading
  | c :: rest => c :: '.' :: rest ++ 'e' :: signed d.leading

/-- The wire layout of a positive decimal. -/
def wire (d : Decimal) : List Char :=
  if -5 ≤ d.leading ∧ d.leading ≤ 15 then d.positional ['.', '0'] else d.scientific

/-! ### What the wire layout is written with -/

/-- The characters of numbers on the wire. -/
def isNumeric (c : Char) : Bool := c.isDigit || c = '.' || c = 'e' || c = '+' || c = '-'

private theorem isNumeric_of_mem_toDigits {n : Nat} {c : Char} (h : c ∈ Nat.toDigits 10 n) :
    isNumeric c = true := by
  simp [isNumeric, Nat.isDigit_of_mem_toDigits (by decide) (by decide) h]

private theorem isNumeric_of_mem_zeros {n : Nat} {c : Char} (h : c ∈ zeros n) :
    isNumeric c = true := by
  rw [List.eq_of_mem_replicate h]
  decide

private theorem isNumeric_of_mem_signed {e : Int} {c : Char} (h : c ∈ signed e) :
    isNumeric c = true := by
  cases e with
  | ofNat n =>
    cases List.mem_cons.mp h with
    | inl h => rw [h]; decide
    | inr h => exact isNumeric_of_mem_toDigits h
  | negSucc n =>
    cases List.mem_cons.mp h with
    | inl h => rw [h]; decide
    | inr h => exact isNumeric_of_mem_toDigits h

private theorem isNumeric_of_mem_text {d : Decimal} {c : Char} (h : c ∈ d.text) :
    isNumeric c = true := isNumeric_of_mem_toDigits h

private theorem isNumeric_of_mem_positional {d : Decimal} {c : Char}
    (h : c ∈ d.positional ['.', '0']) : isNumeric c = true := by
  have hpoint : ['.', '0'].all isNumeric = true := by decide
  unfold positional at h
  simp only at h
  split at h
  · simp only [List.mem_append] at h
    rcases h with (h | h) | h
    · exact isNumeric_of_mem_text h
    · exact isNumeric_of_mem_zeros h
    · exact List.all_eq_true.mp hpoint c h
  · split at h
    · rcases List.mem_append.mp h with h | h
      · exact isNumeric_of_mem_text (List.mem_of_mem_take h)
      · rcases List.mem_cons.mp h with rfl | h
        · decide
        · exact isNumeric_of_mem_text (List.mem_of_mem_drop h)
    · simp only [List.cons_append, List.mem_cons, List.mem_append] at h
      rcases h with rfl | rfl | h | h
      · decide
      · decide
      · exact isNumeric_of_mem_zeros h
      · exact isNumeric_of_mem_text h

private theorem isNumeric_of_mem_scientific {d : Decimal} {c : Char} (h : c ∈ d.scientific) :
    isNumeric c = true := by
  unfold scientific at h
  split at h
  · cases h
  · next digit htext =>
    rcases List.mem_cons.mp h with rfl | h
    · exact isNumeric_of_mem_text (htext ▸ List.mem_cons_self)
    · rcases List.mem_cons.mp h with rfl | h
      · decide
      · exact isNumeric_of_mem_signed h
  · next digit rest _ htext =>
    simp only [List.cons_append, List.mem_cons, List.mem_append] at h
    rcases h with rfl | rfl | h | rfl | h
    · exact isNumeric_of_mem_text (htext ▸ List.mem_cons_self)
    · decide
    · exact isNumeric_of_mem_text (htext ▸ List.mem_cons_of_mem digit h)
    · decide
    · exact isNumeric_of_mem_signed h

theorem isNumeric_of_mem_wire {d : Decimal} {c : Char} (h : c ∈ d.wire) : isNumeric c = true := by
  unfold wire at h
  split at h
  · exact isNumeric_of_mem_positional h
  · exact isNumeric_of_mem_scientific h

/-- The wire layout shows a point or an exponent. -/
theorem point_or_power_mem_wire (d : Decimal) : '.' ∈ d.wire ∨ 'e' ∈ d.wire := by
  unfold wire
  split
  · left
    unfold positional
    simp only
    split
    · simp
    · split <;> simp
  · right
    unfold scientific
    split
    · next htext => exact absurd htext Nat.toDigits_ne_nil
    · simp
    · simp

end Decimal

namespace Binary64

private def withSign (negative : Bool) (text : List Char) : List Char :=
  if negative then '-' :: text else text

/-- The wire text of a finite double; negative zero keeps its sign. -/
def wire? (x : Float) : Option (List Char) :=
  (Dyadic.ofFloat? x).map fun d =>
    withSign d.negative
      (if d.significand = 0 then ['0', '.', '0'] else (Decimal.shortest .even d).wire)

/-- The wire text of a double is that of a number, and it shows a point or an exponent. -/
theorem wire?_eq_some {x : Float} {text : List Char} (h : wire? x = some text) :
    (∀ c ∈ text, Decimal.isNumeric c = true) ∧ ('.' ∈ text ∨ 'e' ∈ text) := by
  obtain ⟨d, -, rfl⟩ := Option.map_eq_some_iff.mp h
  have hmagnitude : ∀ magnitude : List Char,
      (∀ c ∈ magnitude, Decimal.isNumeric c = true) ∧ ('.' ∈ magnitude ∨ 'e' ∈ magnitude) →
      (∀ c ∈ withSign d.negative magnitude, Decimal.isNumeric c = true) ∧
        ('.' ∈ withSign d.negative magnitude ∨ 'e' ∈ withSign d.negative magnitude) := by
    rintro magnitude ⟨hall, hmark⟩
    unfold withSign
    split
    · refine ⟨List.forall_mem_cons.mpr ⟨by decide, hall⟩, ?_⟩
      exact hmark.imp (List.mem_cons_of_mem _) (List.mem_cons_of_mem _)
    · exact ⟨hall, hmark⟩
  have hzero : ['0', '.', '0'].all Decimal.isNumeric = true := by decide
  apply hmagnitude
  split
  · exact ⟨List.all_eq_true.mp hzero, Or.inl (by decide)⟩
  · exact ⟨fun c ↦ Decimal.isNumeric_of_mem_wire, Decimal.point_or_power_mem_wire _⟩

/-- The plain text of a double. -/
def plain (x : Float) : List Char :=
  match Dyadic.ofFloat? x with
  | some d =>
    withSign d.negative (if d.significand = 0 then ['0'] else (Decimal.shortest .up d).positional [])
  | none => if x.isNaN then ['N', 'a', 'N'] else withSign (decide (x < 0)) ['i', 'n', 'f']

end Binary64

end TradeDesk
