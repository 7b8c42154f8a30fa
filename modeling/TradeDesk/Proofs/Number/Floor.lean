import Mathlib
import TradeDesk.Proofs.Number.Order

/-!
# Integer parts of doubles

The fields that a double is packed in say exactly what it unpacks to. A number that is not below one
has a positive integer part, however large it is, and what is not a number has the integer part zero.
-/

namespace TradeDesk.Binary64

open Float.Model
open Float.Model.UnpackedFloat (Sign)

/-! ### Exact readings -/

/-- Whether a sign is the minus sign. -/
def isMinus : Sign → Bool
  | .negative => true
  | .positive => false

/-- The exact value of an unpacked double. -/
def reading? : UnpackedFloat → Option Dyadic
  | .infinity _ | .notANumber => none
  | .zero s => some ⟨isMinus s, 0, -1074⟩
  | .finite s m e _ => some ⟨isMinus s, m, e⟩

private theorem isMinus_ofBitVec (v : BitVec 1) :
    isMinus (Sign.ofBitVec v) = decide (v.toNat = 1) := by
  revert v
  decide

private theorem toNat_unpackExponent (b : BitVec Format.binary64.numBits) :
    (UnpackedFloat.unpackExponent b).toNat = b.toNat / 2 ^ 52 % 2 ^ 11 := by
  simp [UnpackedFloat.unpackExponent, BitVec.extractLsb, Nat.shiftRight_eq_div_pow]

private theorem toNat_unpackMantissa (b : BitVec Format.binary64.numBits) :
    (UnpackedFloat.unpackMantissa b).toNat = b.toNat % 2 ^ 52 := by
  simp [UnpackedFloat.unpackMantissa, BitVec.extractLsb]

private theorem toNat_unpackSign (b : BitVec Format.binary64.numBits) :
    (UnpackedFloat.unpackSign b).toNat = b.toNat / 2 ^ 63 := by
  have hb : b.toNat < 2 ^ 64 := b.isLt
  simp [UnpackedFloat.unpackSign, BitVec.extractLsb, Nat.shiftRight_eq_div_pow]
  omega

theorem toNat_one_append (m : BitVec 52) : (1#1 ++ m).toNat = 2 ^ 52 + m.toNat := by
  rw [BitVec.toNat_append, ← Nat.shiftLeft_add_eq_or_of_lt m.isLt]
  rfl

private theorem reading?_unpack (b : BitVec Format.binary64.numBits) :
    reading? (UnpackedFloat.unpack .binary64 b) =
      if b.toNat / 2 ^ 52 % 2 ^ 11 = 2047 then none
      else if b.toNat / 2 ^ 52 % 2 ^ 11 = 0 then
        some ⟨decide (2 ^ 63 ≤ b.toNat), b.toNat % 2 ^ 52, -1074⟩
      else
        some ⟨decide (2 ^ 63 ≤ b.toNat), 2 ^ 52 + b.toNat % 2 ^ 52,
          Int.ofNat (b.toNat / 2 ^ 52 % 2 ^ 11) - 1075⟩ := by
  have hs : isMinus (Sign.ofBitVec (UnpackedFloat.unpackSign b)) = decide (2 ^ 63 ≤ b.toNat) := by
    have hb : b.toNat < 2 ^ 64 := b.isLt
    rw [isMinus_ofBitVec, toNat_unpackSign, decide_eq_decide]
    omega
  have hones : UnpackedFloat.unpackExponent b = -1#11 ↔
    (UnpackedFloat.unpackExponent b).toNat = 2047 := BitVec.toNat_inj.symm
  have hzero : UnpackedFloat.unpackExponent b = 0#11 ↔
    (UnpackedFloat.unpackExponent b).toNat = 0 := BitVec.toNat_inj.symm
  rw [← toNat_unpackExponent, ← toNat_unpackMantissa, ← hs]
  fun_cases UnpackedFloat.unpack .binary64 b with
  | case1 m e v s he hm => rw [if_pos (hones.mp he), reading?]
  | case2 m e he hm => rw [if_pos (hones.mp he), reading?]
  | case3 m e v s hne he hm =>
    have hm' : (UnpackedFloat.unpackMantissa b).toNat = 0 := congrArg BitVec.toNat hm
    rw [if_neg (mt hones.mpr hne), if_pos (hzero.mp he), hm', reading?]
  | case4 m e k v s hne he hm =>
    have hk : k + 1 = -1074 := by
      simp only [k, e, hzero.mp he]
      rfl
    rw [if_neg (mt hones.mpr hne), if_pos (hzero.mp he), reading?, hk]
  | case5 m e k v s hne he =>
    rw [if_neg (mt hones.mpr hne), if_neg (mt hzero.mpr he), reading?, toNat_one_append]
    rfl

/-- The fields of a double say exactly what it unpacks to. -/
theorem ofFloat?_eq (x : Float) : Dyadic.ofFloat? x = reading? x.toModel.unpack :=
  (reading?_unpack x.toBits.toBitVec).symm

private theorem normal_or_least {b : BitVec Format.binary64.numBits} {s : Sign} {m : Nat} {e : Int}
    {hm : 0 < m} (h : UnpackedFloat.unpack .binary64 b = .finite s m e hm) :
    2 ^ 52 ≤ m ∨ e = -1074 := by
  have hx := reading?_unpack b
  rw [h, reading?] at hx
  split at hx
  · cases hx
  · split at hx
    · exact Or.inr (congrArg Dyadic.exponent (Option.some.inj hx))
    · have hm' := congrArg Dyadic.significand (Option.some.inj hx)
      simp only at hm'
      omega

/-! ### Integer parts -/

private theorem one_le_saturate {n : Int} (h : 1 ≤ n) : 1 ≤ saturate n := by
  have hmin : Int64.minValue.toInt = -2 ^ 63 := rfl
  have hmax : Int64.maxValue.toInt = 2 ^ 63 - 1 := rfl
  have hone : (1 : Int64).toInt = 1 := rfl
  unfold saturate
  rw [Int64.le_iff_toInt_le, Int64.toInt_ofInt_of_le (by omega) (by omega)]
  omega

private theorem floorWord_eq (x : Float) :
    floorWord x = match Dyadic.ofFloat? x with
      | some d => saturate d.floor
      | none => if x.isNaN then 0 else if x < 0 then Int64.minValue else Int64.maxValue := rfl

/-- What is not a number has the integer part zero. -/
theorem floorWord_eq_zero {x : Float} (hx : x.isNaN = true) : floorWord x = 0 := by
  have hu : x.toModel.unpack = .notANumber := by
    have hnan : x.toModel.unpack.isNaN = true := hx
    cases h : x.toModel.unpack with
    | notANumber => rfl
    | _ => simp [h, UnpackedFloat.isNaN] at hnan
  rw [floorWord_eq, ofFloat?_eq, hu]
  simp only [reading?, hx, if_true]

private theorem unpack_one :
    (1.0 : Float).toModel.unpack = .finite .positive (2 ^ 52) (-52) (by decide) := rfl

private theorem one_le_floor {m : Nat} {e : Int} (hshape : 2 ^ 52 ≤ m ∨ e = -1074)
    (he : -52 ≤ e) : 1 ≤ (Dyadic.mk false m e).floor := by
  have hm : 2 ^ 52 ≤ m := hshape.resolve_right (by omega)
  have hpos : 0 < m := by omega
  have hdiv : 0 < (Dyadic.mk false m e).fraction.1 / (Dyadic.mk false m e).fraction.2 := by
    cases e with
    | ofNat n =>
      apply Nat.div_pos
      · exact Nat.mul_pos hpos (Nat.two_pow_pos n)
      · exact Nat.one_pos
    | negSucc n =>
      apply Nat.div_pos
      · exact Nat.le_trans (Nat.pow_le_pow_right Nat.two_pos (by omega)) hm
      · exact Nat.two_pow_pos (n + 1)
  exact Int.ofNat_le.mpr hdiv

/-- A number that is not below one has a positive integer part. -/
theorem one_le_floorWord {x : Float} (hx : x.isNaN = false) (h : ¬ x < 1.0) : 1 ≤ floorWord x := by
  rw [lt_iff_compare, Float.Model.compare, unpack_one] at h
  rw [floorWord_eq, ofFloat?_eq]
  cases hu : x.toModel.unpack with
  | infinity s =>
    cases s with
    | negative => exact absurd (by rw [hu]; rfl) h
    | positive =>
      have hpos : ¬ x < 0 := by
        rw [lt_iff_compare, Float.Model.compare, hu]
        decide
      simp only [reading?, hx, hpos, if_false, Bool.false_eq_true]
      decide
  | notANumber =>
    have hnan : x.isNaN = true := by
      show x.toModel.unpack.isNaN = true
      rw [hu]
      rfl
    rw [hnan] at hx
    cases hx
  | zero s => exact absurd (by rw [hu]; rfl) h
  | finite s m e hm =>
    cases s with
    | negative => exact absurd (by rw [hu]; rfl) h
    | positive =>
      apply one_le_saturate
      apply one_le_floor (normal_or_least hu)
      apply Int.not_lt.mp
      intro he
      apply h
      rw [hu, UnpackedFloat.compare, Int.compare_eq_lt.mpr he]
      rfl

end TradeDesk.Binary64
