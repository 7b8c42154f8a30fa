import TradeDesk.Proofs.Number.Finite

/-!
# Signs of doubles

The sign of a double stands apart from its magnitude, so another sign is put on it without rounding.
Hence negation turns the order round and changes nothing else, and a double is as large as its
negative.
-/

namespace TradeDesk.Binary64

open Float.Model
open Float.Model.UnpackedFloat (Sign packComponents packedInfinity packedZero packedNaN
  unpackSign unpackExponent unpackMantissa unpackMantissa_packComponents unpackExponent_packComponents)

/-! ### Another sign -/

/-- An unpacked double with another sign, if it has one. -/
def resign (f : Sign → Sign) : UnpackedFloat → UnpackedFloat
  | .notANumber => .notANumber
  | .infinity s => .infinity (f s)
  | .zero s => .zero (f s)
  | .finite s m e hm => .finite (f s) m e hm

private theorem neg_eq_resign (u : UnpackedFloat) : u.neg = resign (- ·) u := by
  cases u <;> rfl

private theorem extractLsb_sign (s : BitVec 1) (e : BitVec 11) (m : BitVec 52) :
    (s ++ e ++ m).extractLsb 63 63 = s := by
  apply BitVec.eq_of_toNat_eq
  have hs := s.isLt
  have he := e.isLt
  have hm := m.isLt
  rw [BitVec.extractLsb_toNat, BitVec.toNat_append, BitVec.toNat_append,
    ← Nat.shiftLeft_add_eq_or_of_lt hm, ← Nat.shiftLeft_add_eq_or_of_lt he]
  simp only [Nat.shiftLeft_eq, Nat.shiftRight_eq_div_pow]
  omega

private theorem ofBitVec_unpackSign_packComponents (s : Sign) (e : BitVec 11) (m : BitVec 52) :
    Sign.ofBitVec (unpackSign (packComponents .binary64 s e m)) = s := by
  have hsign : unpackSign (packComponents .binary64 s e m) = s.toBitVec :=
    extractLsb_sign s.toBitVec e m
  rw [hsign]
  cases s <;> rfl

/-- With another sign among its fields a double unpacks to what it was, with the other sign. -/
private theorem unpack_packComponents_resigned (f : Sign → Sign)
    (b : BitVec Format.binary64.numBits) :
    UnpackedFloat.unpack .binary64
        (packComponents .binary64 (f (.ofBitVec (unpackSign b))) (unpackExponent b)
          (unpackMantissa b)) =
      resign f (UnpackedFloat.unpack .binary64 b) := by
  unfold UnpackedFloat.unpack
  simp only [unpackMantissa_packComponents, unpackExponent_packComponents]
  rw [ofBitVec_unpackSign_packComponents]
  split
  · split <;> rfl
  · split
    · split <;> rfl
    · rfl

private theorem log2_add_of_lt {n : Nat} (hn : n < 2 ^ 52) :
    (2 ^ 52 + n).log2 + 1 = Format.mantissaBits .binary64 := by
  apply congrArg (· + 1)
  apply (Nat.log2_eq_iff (by omega)).mpr
  omega

/-- A number with the leading digit goes into the fields that it comes from. -/
private theorem pack_normal (s : Sign) {e : BitVec 11} {m : BitVec 52} (hones : e ≠ -1#11)
    (hm : 0 < (1#1 ++ m).toNat) :
    UnpackedFloat.pack .binary64 (.finite s (1#1 ++ m).toNat ((e.toNat : Int) - 1075) hm) =
      packComponents .binary64 s e m := by
  have hexponent : ((e.toNat : Int) - 1075 + Format.exponentBias .binary64 + (52 : Nat)).toNat =
      e.toNat := by
    simp [Format.exponentBias]
    omega
  have hmost : e.toNat ≠ 2047 := fun h ↦ hones (BitVec.eq_of_toNat_eq h)
  have hlt := e.isLt
  have hmantissa : BitVec.ofNat 52 (2 ^ 52 + m.toNat) = m := by
    apply BitVec.eq_of_toNat_eq
    have hm := m.isLt
    rw [BitVec.toNat_ofNat]
    omega
  unfold UnpackedFloat.pack
  simp only [hexponent, toNat_one_append]
  rw [if_neg (by omega), if_pos (log2_add_of_lt m.isLt), hmantissa,
    BitVec.ofNat_toNat, BitVec.setWidth_eq]

/-- A number without the leading digit goes into the fields that it comes from. -/
private theorem pack_subnormal (s : Sign) {m : BitVec 52} (hm : 0 < m.toNat) :
    UnpackedFloat.pack .binary64 (.finite s m.toNat (-1074) hm) =
      packComponents .binary64 s 0#11 m := by
  have hlog : m.toNat.log2 + 1 ≠ Format.mantissaBits .binary64 := by
    have hlt := (Nat.log2_lt (Nat.ne_of_gt hm)).mpr m.isLt
    change m.toNat.log2 + 1 ≠ 53
    omega
  unfold UnpackedFloat.pack
  simp only
  rw [if_neg (by decide), if_neg hlog, BitVec.ofNat_toNat, BitVec.setWidth_eq]

private theorem pack_resign (f : Sign → Sign) (b : BitVec Format.binary64.numBits)
    (h : (UnpackedFloat.unpack .binary64 b).isNaN = false) :
    UnpackedFloat.pack .binary64 (resign f (UnpackedFloat.unpack .binary64 b)) =
      packComponents .binary64 (f (.ofBitVec (unpackSign b))) (unpackExponent b)
        (unpackMantissa b) := by
  revert h
  fun_cases UnpackedFloat.unpack .binary64 b with
  | case1 m e v s he hm =>
    intro
    show packedInfinity .binary64 _ = packComponents .binary64 _ e m
    rw [he, hm]
    rfl
  | case2 m e he hm =>
    intro h
    cases h
  | case3 m e v s hne he hm =>
    intro
    show packedZero .binary64 _ = packComponents .binary64 _ e m
    rw [he, hm]
    rfl
  | case4 m e k v s hne he hm =>
    intro
    have hk : k + 1 = -1074 := by
      simp only [k, he]
      rfl
    show UnpackedFloat.pack .binary64 (.finite _ m.toNat (k + 1) _) = packComponents .binary64 _ e m
    rw [he]
    simp only [hk]
    exact pack_subnormal _ _
  | case5 m e k v s hne he =>
    intro
    exact pack_normal _ hne _

private theorem unpack_packedNaN :
    UnpackedFloat.unpack .binary64 (packedNaN .binary64) = .notANumber := by
  simp [UnpackedFloat.unpack, packedNaN]

private theorem unpack_pack_resign (f : Sign → Sign) (b : BitVec Format.binary64.numBits) :
    UnpackedFloat.unpack .binary64
        (UnpackedFloat.pack .binary64 (resign f (UnpackedFloat.unpack .binary64 b))) =
      resign f (UnpackedFloat.unpack .binary64 b) := by
  cases h : (UnpackedFloat.unpack .binary64 b).isNaN with
  | false => rw [pack_resign f b h, unpack_packComponents_resigned]
  | true =>
    have hnan : UnpackedFloat.unpack .binary64 b = .notANumber := by
      cases hu : UnpackedFloat.unpack .binary64 b with
      | notANumber => rfl
      | infinity s | zero s | finite s m e hm =>
        rw [hu] at h
        cases h
    rw [hnan]
    exact unpack_packedNaN

/-- The negative of a double has the other sign and is otherwise the same. -/
theorem unpack_neg (x : Float) : (-x).toModel.unpack = x.toModel.unpack.neg := by
  rw [neg_eq_resign]
  refine Eq.trans ?_ (unpack_pack_resign (- ·) _)
  rw [← neg_eq_resign]
  rfl

/-- A double is as large as its negative. -/
theorem abs_neg (x : Float) : (-x).abs = x.abs := by
  have habs : (-x).toModel.unpack.abs = x.toModel.unpack.abs := by
    rw [unpack_neg]
    cases x.toModel.unpack <;> rfl
  exact congrArg (fun u ↦ (⟨Float.Model.pack u⟩ : Float)) habs

/-! ### The order of negatives -/

private theorem compare_neg_comm (a b : UnpackedFloat) : a.compare b.neg = b.compare a.neg := by
  have hmagnitude : ∀ (m n : Nat) (e f : Int), (compare e f).then (compare m n) =
      ((compare f e).then (compare n m)).swap := by
    intro m n e f
    rw [Ordering.swap_then, Int.compare_swap, Nat.compare_swap]
  rcases a with ⟨_ | _⟩ | _ | ⟨_ | _⟩ | ⟨_ | _, m, e, hm⟩ <;>
    rcases b with ⟨_ | _⟩ | _ | ⟨_ | _⟩ | ⟨_ | _, n, f, hn⟩
  all_goals first
    | rfl
    | exact congrArg some (hmagnitude m n e f)
    | exact congrArg some (hmagnitude n m f e).symm

private theorem neg_neg_unpacked (u : UnpackedFloat) : u.neg.neg = u := by
  rcases u with ⟨_ | _⟩ | _ | ⟨_ | _⟩ | ⟨_ | _, m, e, hm⟩ <;> rfl

variable {x y : Float}

private theorem compare_neg_right (x y : Float) :
    x.toModel.compare (-y).toModel = y.toModel.compare (-x).toModel := by
  rw [Float.Model.compare, Float.Model.compare, unpack_neg, unpack_neg, compare_neg_comm]

private theorem compare_neg_neg (x y : Float) :
    (-x).toModel.compare (-y).toModel = y.toModel.compare x.toModel := by
  rw [Float.Model.compare, Float.Model.compare, unpack_neg, unpack_neg, compare_neg_comm,
    neg_neg_unpacked]

/-- A negative above one double is that of a double below the negative. -/
theorem lt_neg_comm : x < -y ↔ y < -x := by
  rw [lt_iff_compare, lt_iff_compare, compare_neg_right]

theorem le_neg_comm : x ≤ -y ↔ y ≤ -x := by
  rw [le_iff_compare, le_iff_compare, compare_neg_right]

/-- Negation turns the order round. -/
theorem neg_lt_neg_iff : -x < -y ↔ y < x := by
  rw [lt_iff_compare, lt_iff_compare, compare_neg_neg]

theorem neg_le_neg_iff : -x ≤ -y ↔ y ≤ x := by
  rw [le_iff_compare, le_iff_compare, compare_neg_neg]

/-! ### Positive and negative doubles -/

private theorem unpack_zero : (0.0 : Float).toModel.unpack = .zero .positive := rfl

/-- The negative of a positive double is negative. -/
theorem neg_lt_zero_iff : -x < 0.0 ↔ 0.0 < x := by
  rw [lt_iff_compare, lt_iff_compare, Float.Model.compare, Float.Model.compare, unpack_neg,
    unpack_zero]
  rcases x.toModel.unpack with ⟨_ | _⟩ | _ | ⟨_ | _⟩ | ⟨_ | _, m, e, hm⟩ <;> rfl

theorem zero_lt_neg_iff : 0.0 < -x ↔ x < 0.0 := by
  rw [lt_iff_compare, lt_iff_compare, Float.Model.compare, Float.Model.compare, unpack_neg,
    unpack_zero]
  rcases x.toModel.unpack with ⟨_ | _⟩ | _ | ⟨_ | _⟩ | ⟨_ | _, m, e, hm⟩ <;> rfl

/-- What is above a double that is not negative is positive. -/
theorem pos_of_lt_of_nonneg (hx : 0.0 ≤ x) (h : x < y) : 0.0 < y := by
  rw [le_iff_compare, Float.Model.compare, unpack_zero] at hx
  rw [lt_iff_compare, Float.Model.compare] at h
  rw [lt_iff_compare, Float.Model.compare, unpack_zero]
  generalize x.toModel.unpack = a at hx h
  generalize y.toModel.unpack = b at h ⊢
  rcases a with ⟨_ | _⟩ | _ | ⟨_ | _⟩ | ⟨_ | _, m, e, hm⟩ <;>
    rcases b with ⟨_ | _⟩ | _ | ⟨_ | _⟩ | ⟨_ | _, n, f, hn⟩
  all_goals first
    | rfl
    | exact (Bool.false_ne_true hx).elim
    | cases h

end TradeDesk.Binary64
