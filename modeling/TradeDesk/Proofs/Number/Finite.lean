import TradeDesk.Proofs.Number.Floor

/-!
# Finite doubles

Rounding keeps 53 binary digits, so the exponent of what arithmetic gives is bounded by those of its
operands, and a number whose exponent is not too large stays finite when it is packed. The integers
of 64 bits and the powers of ten that numerals are read with are far from the largest double.
-/

namespace TradeDesk.Binary64

open Float.Model
open Float.Model.UnpackedFloat (Sign Accuracy ExtendedMantissa packComponents packedInfinity packedZero
  unpackMantissa_packComponents unpackExponent_packComponents roundWithAccuracy shiftToTargetExponent
  shiftToExponent)

/-! ### Packing -/

/-- A number whose exponent, when it is not zero, is at most `k`. -/
inductive Within (k : Int) : UnpackedFloat → Prop where
  | zero (s : Sign) : Within k (.zero s)
  | finite {s : Sign} {m : Nat} {e : Int} {hm : 0 < m} (he : e ≤ k) : Within k (.finite s m e hm)

variable {k : Int} {u : UnpackedFloat}

theorem Within.cases (h : Within k u) :
    (∃ s, u = .zero s) ∨ ∃ s m e hm, u = .finite s m e hm ∧ e ≤ k := by
  cases h with
  | zero s => exact Or.inl ⟨s, rfl⟩
  | finite he => exact Or.inr ⟨_, _, _, _, rfl, he⟩

theorem Within.mono (h : Within k u) {l : Int} (hkl : k ≤ l) : Within l u := by
  cases h with
  | zero s => exact zero s
  | finite he => exact finite (Int.le_trans he hkl)

theorem Within.isFinite (h : Within k u) : u.isFinite = true := by
  cases h <;> rfl

private theorem toNat_ofNat {n : Nat} (hn : n ≤ 2046) : (BitVec.ofNat 11 n).toNat = n := by
  rw [BitVec.toNat_ofNat]
  omega

private theorem ofNat_ne_ones {n : Nat} (hn : n ≤ 2046) : BitVec.ofNat 11 n ≠ -1#11 := by
  intro h
  have hval := congrArg BitVec.toNat h
  rw [toNat_ofNat hn] at hval
  simp at hval
  omega

/-- An exponent field that is neither all zeros nor all ones is the exponent of a number. -/
private theorem unpack_packComponents (s : Sign) {n : Nat} (hpos : 0 < n) (hn : n ≤ 2046)
    (m : BitVec 52) :
    ∃ t d hd, UnpackedFloat.unpack .binary64 (packComponents .binary64 s (BitVec.ofNat 11 n) m) =
      .finite t d ((n : Int) - 1075) hd := by
  have hne : BitVec.ofNat 11 n ≠ 0#11 := by
    intro h
    have hval := congrArg BitVec.toNat h
    rw [toNat_ofNat hn] at hval
    simp at hval
    omega
  unfold UnpackedFloat.unpack
  simp only [unpackMantissa_packComponents, unpackExponent_packComponents]
  rw [if_neg (ofNat_ne_ones hn), if_neg hne, toNat_ofNat hn]
  have hd : 0 < (1#1 ++ m).toNat := by
    rw [toNat_one_append]
    omega
  exact ⟨_, _, hd, rfl⟩

/-- An exponent field of zeros is the least exponent. -/
private theorem within_packComponents_zero (s : Sign) (m : BitVec 52) :
    Within (-1074) (UnpackedFloat.unpack .binary64 (packComponents .binary64 s 0#11 m)) := by
  unfold UnpackedFloat.unpack
  simp only [unpackMantissa_packComponents, unpackExponent_packComponents]
  rw [if_neg (by decide), if_pos trivial]
  split
  · exact .zero _
  · exact .finite (Int.le_refl (-1074))

private theorem toNat_biased (e : Int) :
    (e + Format.exponentBias .binary64 + (52 : Nat)).toNat = (e + 1075).toNat := by
  simp [Format.exponentBias]
  omega

/-- Packing keeps a number whose exponent is not too large. -/
theorem Within.unpack_pack (h : Within k u) (hleast : -1074 ≤ k) (hmost : k ≤ 971) :
    Within k (UnpackedFloat.unpack .binary64 (UnpackedFloat.pack .binary64 u)) := by
  obtain ⟨s, rfl⟩ | ⟨s, m, e, hm, rfl, he⟩ := h.cases
  · exact (within_packComponents_zero s 0).mono hleast
  · unfold UnpackedFloat.pack
    simp only [toNat_biased]
    rw [if_neg (by omega)]
    split
    · by_cases hzero : (e + 1075).toNat = 0
      · rw [hzero]
        exact (within_packComponents_zero s _).mono hleast
      · obtain ⟨t, d, hd, heq⟩ := unpack_packComponents s (Nat.pos_of_ne_zero hzero)
          (n := (e + 1075).toNat) (by omega) (BitVec.ofNat 52 m)
        rw [heq]
        exact .finite (by omega)
    · exact (within_packComponents_zero s _).mono hleast

/-- A number of 53 digits whose exponent is not too large keeps its exponent when it is packed. -/
private theorem unpack_pack_of_digits (s : Sign) {n : Nat} {f : Int} (hn : 0 < n)
    (hlow : 2 ^ 52 ≤ n) (hhigh : n < 2 ^ 53) (hleast : -1074 ≤ f) (hmost : f ≤ 971) :
    ∃ t d hd, UnpackedFloat.unpack .binary64 (UnpackedFloat.pack .binary64 (.finite s n f hn)) =
      .finite t d f hd := by
  have hlog : n.log2 + 1 = Format.mantissaBits .binary64 := by
    have h52 := (Nat.le_log2 (Nat.ne_of_gt hn)).mpr hlow
    have h53 := (Nat.log2_lt (Nat.ne_of_gt hn)).mpr hhigh
    change n.log2 + 1 = 53
    omega
  unfold UnpackedFloat.pack
  simp only [toNat_biased]
  rw [if_neg (by omega), if_pos hlog]
  obtain ⟨t, d, hd, heq⟩ := unpack_packComponents s (n := (f + 1075).toNat) (by omega) (by omega)
    (BitVec.ofNat 52 n)
  have hf : ((f + 1075).toNat : Int) - 1075 = f := by omega
  rw [hf] at heq
  exact ⟨t, d, hd, heq⟩

private theorem isNaN_eq_false (h : u.isFinite = true) : u.isNaN = false := by
  cases u with
  | zero s => rfl
  | finite s m e hm => rfl
  | infinity s => rfl
  | notANumber => cases h

private theorem isNaN_packedInfinity (s : Sign) :
    (UnpackedFloat.unpack .binary64 (packedInfinity .binary64 s)).isNaN = false := by
  simp [UnpackedFloat.unpack, packedInfinity, UnpackedFloat.isNaN]

/-- A packed number is a number. -/
theorem isNaN_unpack_pack (h : u.isFinite = true) :
    (UnpackedFloat.unpack .binary64 (UnpackedFloat.pack .binary64 u)).isNaN = false := by
  cases u with
  | zero s =>
    have hwithin : Within 0 (.zero s) := .zero s
    exact isNaN_eq_false (hwithin.unpack_pack (by decide) (by decide)).isFinite
  | infinity s => cases h
  | notANumber => cases h
  | finite s m e hm =>
    by_cases he : e ≤ 971
    · have hwithin : Within (max e (-1074)) (.finite s m e hm) := .finite (Int.le_max_left _ _)
      exact isNaN_eq_false (hwithin.unpack_pack (by omega) (by omega)).isFinite
    · unfold UnpackedFloat.pack
      rw [if_pos (by simp [Format.exponentBias]; omega)]
      exact isNaN_packedInfinity s

/-- The digits and the exponent of a double. -/
theorem bounds_of_unpack {x : Float} {s : Sign} {m : Nat} {e : Int} {hm : 0 < m}
    (h : x.toModel.unpack = .finite s m e hm) : m < 2 ^ 53 ∧ e ≤ 971 := by
  have hx := ofFloat?_eq x
  rw [h, reading?] at hx
  simp only [Dyadic.ofFloat?, fractionBits, exponentBits] at hx
  split at hx
  · cases hx
  · split at hx
    all_goals
      have hm' := congrArg Dyadic.significand (Option.some.inj hx)
      have he' := congrArg Dyadic.exponent (Option.some.inj hx)
      simp only [Int.ofNat_eq_natCast] at hm' he'
      omega

theorem within_of_isFinite {x : Float} (hx : x.isFinite = true) : Within 971 x.toModel.unpack := by
  change x.toModel.unpack.isFinite = true at hx
  cases hxu : x.toModel.unpack with
  | zero s => exact .zero s
  | finite s m e hm => exact .finite (bounds_of_unpack hxu).2
  | _ =>
    rw [hxu] at hx
    cases hx

/-! ### Rounding -/

private theorem shift_mantissa (em : ExtendedMantissa) (n : Nat) :
    (em >>> n).mantissa = em.mantissa / 2 ^ n := by
  induction n with
  | zero => exact (Nat.div_one _).symm
  | succ n ih =>
    change (em >>> n).mantissa / 2 = _
    rw [ih, Nat.div_div_eq_div_mul, Nat.pow_succ]

private theorem mantissa_ofMantissaAndAccuracy (m : Nat) (a : Accuracy) :
    (ExtendedMantissa.ofMantissaAndAccuracy m a).mantissa = m := by
  rcases a with _ | _ | _ | _ <;> rfl

private theorem roundedMantissa_bounds (em : ExtendedMantissa) :
    em.mantissa ≤ em.roundedMantissa ∧ em.roundedMantissa ≤ em.mantissa + 1 := by
  rcases em with ⟨m, _ | _, _ | _⟩ <;>
    simp [ExtendedMantissa.roundedMantissa, ExtendedMantissa.accuracy, Accuracy.roundToNearestEven]
  omega

/-- How many binary digits rounding drops: those beyond 53, and those below the least exponent. -/
def dropped (m : Nat) (e : Int) : Nat := (max ((m.log2 : Int) + 1 + e - 53) (-1074) - e).toNat

private theorem shiftToTargetExponent_eq (m : Nat) (e : Int) (a : Accuracy) :
    shiftToTargetExponent .binary64 m e a =
      (ExtendedMantissa.ofMantissaAndAccuracy m a >>> dropped m e, e + dropped m e) := rfl

/-- What is left has 53 digits at most. -/
private theorem div_dropped_lt (m : Nat) (e : Int) : m / 2 ^ dropped m e < 2 ^ 53 := by
  apply Nat.div_lt_of_lt_mul
  rw [← Nat.pow_add]
  have hlog : m.log2 + 1 ≤ dropped m e + 53 := by
    unfold dropped
    omega
  exact Nat.lt_of_lt_of_le Nat.lt_log2_self (Nat.pow_le_pow_right (by decide) hlog)

private theorem dropped_of_lt {m : Nat} {e : Int} (hm : m < 2 ^ 53) (he : -1074 ≤ e) :
    dropped m e = 0 := by
  have hlog : m.log2 ≤ 52 := by
    by_cases h : m = 0
    · simp [h]
    · exact Nat.lt_succ_iff.mp ((Nat.log2_lt h).mpr hm)
  unfold dropped
  omega

private theorem dropped_of_eq {e : Int} (he : -1074 ≤ e) : dropped (2 ^ 53) e = 1 := by
  have hlog : Nat.log2 (2 ^ 53) = 53 := by decide
  unfold dropped
  rw [hlog]
  omega

/-- The second shift takes back the digit that a carry adds. -/
private theorem shift_rounded {r : Nat} {e : Int} (hr : r ≤ 2 ^ 53) (he : -1074 ≤ e) :
    (shiftToTargetExponent .binary64 r e .exact).1.mantissa = (if r < 2 ^ 53 then r else 2 ^ 52) ∧
      (shiftToTargetExponent .binary64 r e .exact).2 = if r < 2 ^ 53 then e else e + 1 := by
  rw [shiftToTargetExponent_eq, shift_mantissa, mantissa_ofMantissaAndAccuracy]
  split
  · next hlt => simp [dropped_of_lt hlt he]
  · have hcarry : r = 2 ^ 53 := by omega
    rw [hcarry, dropped_of_eq he]
    exact ⟨by decide, rfl⟩

/-- Rounding leaves a number of 53 digits at most, and drops one digit more only if they carry. -/
theorem roundWithAccuracy_cases (s : Sign) (m : Nat) (e : Int) (a : Accuracy) :
    roundWithAccuracy .binary64 s m e a = .zero s ∧ m / 2 ^ dropped m e = 0 ∨
      ∃ n f hn, roundWithAccuracy .binary64 s m e a = .finite s n f hn ∧
        (m / 2 ^ dropped m e ≤ n ∧ n < 2 ^ 53 ∧ f = e + dropped m e ∨
          n = 2 ^ 52 ∧ f = e + dropped m e + 1) := by
  have hleast : -1074 ≤ e + dropped m e := by
    unfold dropped
    omega
  obtain ⟨hlow, hhigh⟩ := roundedMantissa_bounds
    (ExtendedMantissa.ofMantissaAndAccuracy m a >>> dropped m e)
  rw [shift_mantissa, mantissa_ofMantissaAndAccuracy] at hlow hhigh
  have hdigits := div_dropped_lt m e
  unfold roundWithAccuracy
  rw [shiftToTargetExponent_eq]
  dsimp only
  generalize (ExtendedMantissa.ofMantissaAndAccuracy m a >>> dropped m e).roundedMantissa = r at *
  obtain ⟨hn, hf⟩ := shift_rounded (r := r) (by omega) hleast
  split
  · next hzero =>
    rw [hn] at hzero
    split at hzero
    · exact Or.inl ⟨rfl, Nat.le_zero.mp (hzero ▸ hlow)⟩
    · exact absurd hzero (by decide)
  · next hne =>
    refine Or.inr ⟨_, _, Nat.pos_of_ne_zero hne, rfl, ?_⟩
    rw [hn, hf]
    split
    · next hlt => exact Or.inl ⟨hlow, hlt, rfl⟩
    · exact Or.inr ⟨rfl, rfl⟩

/-- Rounding raises the exponent to that of a number of 53 digits, or to the least one, and by one
more. -/
theorem within_roundWithAccuracy (s : Sign) {m : Nat} {e : Int} (a : Accuracy) (he : e ≤ k)
    (hm : (m.log2 : Int) + e ≤ k + 52) (hleast : -1074 ≤ k) :
    Within (k + 1) (roundWithAccuracy .binary64 s m e a) := by
  have hdropped : e + dropped m e ≤ k := by
    unfold dropped
    omega
  cases roundWithAccuracy_cases s m e a with
  | inl hzero =>
    rw [hzero.1]
    exact .zero s
  | inr hfinite =>
    obtain ⟨n, f, hn, heq, hf⟩ := hfinite
    rw [heq]
    exact .finite (by omega)

/-! ### Products, quotients and integers -/

variable {x y : Float} {l : Int}

private theorem log2_lt {m n : Nat} (hn : 0 < n) (h : m < 2 ^ n) : m.log2 < n := by
  by_cases hm : m = 0
  · rwa [hm, Nat.log2_zero]
  · exact (Nat.log2_lt hm).mpr h

theorem within_mul (hx : Within k x.toModel.unpack) (hy : Within l y.toModel.unpack)
    (hleast : -1128 ≤ k + l) (hmost : k + l ≤ 916) : Within (k + l + 55) (x * y).toModel.unpack := by
  change Within _ (UnpackedFloat.unpack .binary64 (UnpackedFloat.pack .binary64
    (UnpackedFloat.mul .binary64 x.toModel.unpack y.toModel.unpack)))
  apply Within.unpack_pack _ (by omega) (by omega)
  obtain ⟨s, hxu⟩ | ⟨s, m, e, hm, hxu, he⟩ := hx.cases <;>
    obtain ⟨t, hyu⟩ | ⟨t, n, f, hn, hyu, hf⟩ := hy.cases <;> rw [hxu, hyu]
  case inr.inr =>
    have hlog : (m * n).log2 < 53 + 53 := by
      apply log2_lt (by decide)
      rw [Nat.pow_add]
      exact Nat.mul_lt_mul'' (bounds_of_unpack hxu).1 (bounds_of_unpack hyu).1
    have hround := within_roundWithAccuracy (s * t) .exact (m := m * n) (e := e + f) (k := k + l + 54)
      (by omega) (by omega) (by omega)
    exact hround.mono (by omega)
  all_goals exact .zero _

theorem within_div (hx : Within k x.toModel.unpack) {t : Sign} {n : Nat} {f : Int} {hn : 0 < n}
    (hy : y.toModel.unpack = .finite t n f hn) (hleast : -1074 ≤ k - f) (hmost : k - f ≤ 900) :
    Within (k - f + 2) (x / y).toModel.unpack := by
  change Within _ (UnpackedFloat.unpack .binary64 (UnpackedFloat.pack .binary64
    (UnpackedFloat.div .binary64 x.toModel.unpack y.toModel.unpack)))
  apply Within.unpack_pack _ (by omega) (by omega)
  rw [hy]
  obtain ⟨s, hxu⟩ | ⟨s, m, e, hm, hxu, he⟩ := hx.cases
  · rw [hxu]
    exact .zero (s / t)
  · rw [hxu]
    -- The dividend gets as many more digits as the quotient needs, and its exponent as much less.
    let g := min (e - f)
      (Format.binary64.targetExponent (totalExponent m e - totalExponent n f))
    let i := (e - f - g).toNat
    have hg : g ≤ e - f := Int.min_le_left _ _
    have hlog : (m <<< i / n).log2 < 53 + i := by
      apply log2_lt (by omega)
      apply Nat.lt_of_le_of_lt (Nat.div_le_self _ n)
      rw [Nat.shiftLeft_eq, Nat.pow_add]
      exact Nat.mul_lt_mul_of_pos_right (bounds_of_unpack hxu).1 (Nat.two_pow_pos i)
    have hround := within_roundWithAccuracy (s / t) (k := k - f + 1)
      (UnpackedFloat.accuracyOfFraction (m <<< i % n) n) (m := m <<< i / n) (e := g)
      (by omega) (by omega) (by omega)
    exact hround.mono (by omega)

private theorem log2_shiftLeft_lt {n : Nat} (hn : n < 2 ^ 64) (i : Nat) :
    (n <<< i).log2 < 64 + i := by
  apply log2_lt (by omega)
  rw [Nat.shiftLeft_eq, Nat.pow_add]
  exact Nat.mul_lt_mul_of_pos_right hn (Nat.two_pow_pos i)

private theorem within_normalize {n : Nat} (hn : n < 2 ^ 64) :
    Within 13 (UnpackedFloat.normalize .binary64 n 0 .positive) := by
  unfold UnpackedFloat.normalize
  split
  · next h => exact absurd (Int.compare_eq_lt.mp h) (by omega)
  · exact .zero .positive
  · let i := (0 - Format.binary64.targetExponent (totalExponent n 0)).toNat
    have hlog := log2_shiftLeft_lt hn i
    exact within_roundWithAccuracy .positive .exact (m := n <<< i) (e := 0 - i) (k := 12)
      (by omega) (by omega) (by decide)

/-- A number times a power of ten is rounded once. -/
private theorem ofScientific_eq {n e : Nat} (hn : n ≠ 0) (he : e ≤ 308) :
    UnpackedFloat.ofScientific .binary64 n e =
      roundWithAccuracy .binary64 .positive (n <<< 53 * 10 ^ e) (-53) .exact := by
  have hhigh : ¬ (e : Int) > 2 ^ Format.exponentBits .binary64 := by
    change ¬ (e : Int) > 2 ^ 11
    omega
  have hlow : ¬ (e : Int) < -((2 ^ Format.exponentBits .binary64 : Int) + n.log2) := by
    change ¬ (e : Int) < -((2 ^ 11 : Int) + n.log2)
    omega
  unfold UnpackedFloat.ofScientific
  rw [dif_neg hn, if_neg hhigh, if_neg hlow, if_pos (Int.natCast_nonneg e)]
  unfold UnpackedFloat.mul
  simp only [Int.toNat_natCast]
  rfl

/-- An integer of 64 bits is far from the largest double. -/
theorem within_ofNat {n : Nat} (hn : n < 2 ^ 64) : Within 16 (Float.ofNat n).toModel.unpack := by
  change Within 16 (Float.ofScientific n false 0).toModel.unpack
  unfold Float.ofScientific
  split
  · have hword : Within 13 n.toUInt64.toFloat.toModel.unpack :=
      (within_normalize n.toUInt64.toNat_lt).unpack_pack (by decide) (by decide)
    have hone : Within (-52) (1.0 : Float).toModel.unpack := .finite (Int.le_refl (-52))
    exact within_mul hword hone (by decide) (by decide)
  · next hlarge =>
    have hlog := log2_shiftLeft_lt hn 53
    have hround := within_roundWithAccuracy .positive .exact (m := n <<< 53) (e := -53) (k := 15)
      (by decide) (by omega) (by decide)
    have hmodel := ofScientific_eq (n := n) (by omega) (Nat.zero_le 308)
    rw [Nat.pow_zero, Nat.mul_one] at hmodel
    rw [← hmodel] at hround
    exact hround.unpack_pack (by decide) (by decide)

/-! ### Powers of ten -/

/-- Whether a double is a number other than zero with no digit more than 52 places behind the
point. -/
def reachesOne : UnpackedFloat → Bool
  | .finite _ _ f _ => decide (-52 ≤ f)
  | _ => false

private theorem reachesOne_small : ∀ e ≤ 22,
    reachesOne (Float.ofScientific 1 false e).toModel.unpack = true := by
  decide

private theorem reachesOne_large : ∀ e < 3,
    reachesOne (Float.ofScientific 1 false (306 + e)).toModel.unpack = true := by
  decide +kernel

/-- A number of more than 53 digits before the point keeps 53 of them. -/
private theorem reachesOne_round {m : Nat} (s : Sign) (hlow : 2 ^ 53 ≤ m) (h1075 : m.log2 < 1075) :
    reachesOne (UnpackedFloat.unpack .binary64 (UnpackedFloat.pack .binary64
      (roundWithAccuracy .binary64 s m (-53) .exact))) = true := by
  have hm : m ≠ 0 := by omega
  have h53 : 53 ≤ m.log2 := (Nat.le_log2 hm).mpr hlow
  have hdropped : dropped m (-53) = m.log2 - 52 := by
    unfold dropped
    omega
  have hkept : 2 ^ 52 ≤ m / 2 ^ dropped m (-53) := by
    rw [hdropped, Nat.le_div_iff_mul_le (Nat.two_pow_pos _), ← Nat.pow_add]
    have hlog : 52 + (m.log2 - 52) = m.log2 := by omega
    rw [hlog]
    exact Nat.log2_self_le hm
  obtain hzero | ⟨n, f, hn, heq, hdigits⟩ := roundWithAccuracy_cases s m (-53) .exact
  · omega
  · obtain ⟨t, d, hd, hpack⟩ := unpack_pack_of_digits s hn (by omega) (by omega) (f := f) (by omega)
      (by omega)
    rw [heq, hpack]
    exact decide_eq_true (by omega)

private theorem ten_pow_lt (e : Nat) : 10 ^ e < 2 ^ (10 * (e / 3) + 7) := by
  have hthree : (10 ^ 3) ^ (e / 3) ≤ (2 ^ 10) ^ (e / 3) := Nat.pow_le_pow_left (by decide) _
  have hdigits : 10 ^ (e % 3) ≤ 10 ^ 2 := Nat.pow_le_pow_right (by decide) (by omega)
  have hrest : 10 ^ (e % 3) < 2 ^ 7 := Nat.lt_of_le_of_lt hdigits (by decide)
  calc 10 ^ e = (10 ^ 3) ^ (e / 3) * 10 ^ (e % 3) := by
        rw [← Nat.pow_mul, ← Nat.pow_add, Nat.div_add_mod]
    _ < (2 ^ 10) ^ (e / 3) * 2 ^ 7 :=
        Nat.mul_lt_mul_of_le_of_lt hthree hrest (Nat.pow_pos (by decide))
    _ = 2 ^ (10 * (e / 3) + 7) := by rw [← Nat.pow_mul, ← Nat.pow_add]

private theorem reachesOne_tenTo {e : Nat} (he : e ≤ 308) :
    reachesOne (Float.ofScientific 1 false e).toModel.unpack = true := by
  by_cases hsmall : e ≤ 22
  · exact reachesOne_small e hsmall
  · by_cases hlarge : 306 ≤ e
    · obtain ⟨i, rfl⟩ := Nat.exists_eq_add_of_le hlarge
      exact reachesOne_large i (by omega)
    · have hpos : 0 < 10 ^ e := Nat.pow_pos (by decide)
      have hlog : (2 ^ 53 * 10 ^ e).log2 < 53 + (10 * (e / 3) + 7) := by
        apply log2_lt (by omega)
        rw [Nat.pow_add 2 53]
        exact Nat.mul_lt_mul_of_pos_left (ten_pow_lt e) (Nat.two_pow_pos 53)
      have hround := reachesOne_round .positive (Nat.le_mul_of_pos_right (2 ^ 53) hpos) (by omega)
      have hmodel := ofScientific_eq (n := 1) (by decide) he
      rw [Nat.one_shiftLeft] at hmodel
      rw [← hmodel] at hround
      unfold Float.ofScientific
      rw [dif_neg (by omega)]
      exact hround

/-- A power of ten that is not beyond all doubles has no digit more than 52 places behind the
point. -/
theorem unpack_tenTo {e : Nat} (he : e ≤ 308) :
    ∃ s n f hn, (Float.ofScientific 1 false e).toModel.unpack = .finite s n f hn ∧ -52 ≤ f := by
  have hreaches := reachesOne_tenTo he
  cases hu : (Float.ofScientific 1 false e).toModel.unpack with
  | finite s n f hn =>
    rw [hu] at hreaches
    exact ⟨s, n, f, hn, rfl, of_decide_eq_true hreaches⟩
  | _ =>
    rw [hu] at hreaches
    cases hreaches

/-! ### Finite doubles -/

theorem within_div_tenTo {e : Nat} (he : e ≤ 308) (hx : Within k x.toModel.unpack) (hleast : 0 ≤ k)
    (hmost : k ≤ 800) : Within (k + 54) (x / Float.ofScientific 1 false e).toModel.unpack := by
  obtain ⟨s, n, f, hn, hu, hf⟩ := unpack_tenTo he
  have hf' := (bounds_of_unpack hu).2
  exact (within_div hx hu (by omega) (by omega)).mono (by omega)

theorem isFinite_of_isInf_eq_false (hnan : x.isNaN = false) (hinf : x.isInf = false) :
    x.isFinite = true := by
  change x.toModel.unpack.isNaN = false at hnan
  change x.toModel.unpack.isInf = false at hinf
  change x.toModel.unpack.isFinite = true
  cases hx : x.toModel.unpack with
  | zero s => rfl
  | finite s m e hm => rfl
  | infinity s =>
    rw [hx] at hinf
    cases hinf
  | notANumber =>
    rw [hx] at hnan
    cases hnan

/-- A product of finite doubles is a number, though perhaps an infinite one. -/
theorem isNaN_mul (hx : x.isFinite = true) (hy : y.isFinite = true) : (x * y).isNaN = false := by
  have hmul : (UnpackedFloat.mul .binary64 x.toModel.unpack y.toModel.unpack).isFinite = true := by
    obtain ⟨s, hxu⟩ | ⟨s, m, e, hm, hxu, -⟩ := (within_of_isFinite hx).cases <;>
      obtain ⟨t, hyu⟩ | ⟨t, n, f, hn, hyu, -⟩ := (within_of_isFinite hy).cases <;> rw [hxu, hyu]
    case inr.inr =>
      change (roundWithAccuracy .binary64 (s * t) (m * n) (e + f) .exact).isFinite = true
      obtain ⟨hround, -⟩ | ⟨r, g, hr, hround, -⟩ :=
        roundWithAccuracy_cases (s * t) (m * n) (e + f) .exact <;> rw [hround] <;> rfl
    all_goals rfl
  exact isNaN_unpack_pack hmul

theorem isFinite_mul_tenTo {e : Nat} (he : e ≤ 308) (hx : x.isFinite = true)
    (hinf : (x * Float.ofScientific 1 false e).isInf = false) :
    (x * Float.ofScientific 1 false e).isFinite = true := by
  have hten : (Float.ofScientific 1 false e).isFinite = true := by
    obtain ⟨s, n, f, hn, hu, -⟩ := unpack_tenTo he
    change (Float.ofScientific 1 false e).toModel.unpack.isFinite = true
    rw [hu]
    rfl
  exact isFinite_of_isInf_eq_false (isNaN_mul hx hten) hinf

theorem isFinite_neg (hx : x.isFinite = true) : (-x).isFinite = true := by
  have hneg : Within 971 x.toModel.unpack.neg := by
    obtain ⟨s, hu⟩ | ⟨s, m, e, hm, hu, he⟩ := (within_of_isFinite hx).cases <;> rw [hu]
    · exact .zero _
    · exact .finite he
  exact (hneg.unpack_pack (by decide) (by decide)).isFinite

end TradeDesk.Binary64
