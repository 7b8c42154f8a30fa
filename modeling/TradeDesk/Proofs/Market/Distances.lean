import TradeDesk.Market.Record

/-!
# Distances of times

Times are 64-bit words, and so are the distances between them: one that no word can say wraps around.
A distance that a word can say is the difference of the two numbers. Times that come from timestamps
in milliseconds are near enough to each other for that, and so is the time of a number of bars before.
-/

namespace TradeDesk

/-! ### Numbers that are words -/

/-- A number that a word can say. -/
def FitsWord (n : Int) : Prop := Int64.minValue.toInt ≤ n ∧ n ≤ Int64.maxValue.toInt

instance (n : Int) : Decidable (FitsWord n) := inferInstanceAs (Decidable (_ ∧ _))

theorem fitsWord_iff {n : Int} :
    FitsWord n ↔ -0x8000000000000000 ≤ n ∧ n < 0x8000000000000000 := by
  rw [FitsWord, Int64.toInt_minValue, Int64.toInt_maxValue]
  omega

theorem toInt_ofInt_of_fitsWord {n : Int} (h : FitsWord n) : (Int64.ofInt n).toInt = n := by
  obtain ⟨hlow, hhigh⟩ := fitsWord_iff.mp h
  exact Int64.toInt_ofInt_of_le hlow hhigh

/-- A difference that fits does not wrap around. -/
theorem toInt_sub_of_fitsWord {a b : Int64} (h : FitsWord (a.toInt - b.toInt)) :
    (a - b).toInt = a.toInt - b.toInt := by
  obtain ⟨hlow, hhigh⟩ := fitsWord_iff.mp h
  rw [Int64.toInt_sub]
  exact Int.bmod_eq_of_le (by omega) (by omega)

/-- A product that fits does not wrap around. -/
theorem toInt_mul_of_fitsWord {a b : Int64} (h : FitsWord (a.toInt * b.toInt)) :
    (a * b).toInt = a.toInt * b.toInt := by
  obtain ⟨hlow, hhigh⟩ := fitsWord_iff.mp h
  rw [Int64.toInt_mul]
  exact Int.bmod_eq_of_le (by omega) (by omega)

/-! ### Arithmetic that is checked -/

/-- The word of a number, if there is one. -/
def word? (n : Int) : Option Int64 := if FitsWord n then some (.ofInt n) else none

/-- The difference of two words as a word. -/
def minus? (a b : Int64) : Option Int64 := word? (a.toInt - b.toInt)

/-- The product of two words as a word. -/
def times? (a b : Int64) : Option Int64 := word? (a.toInt * b.toInt)

/-- A difference that fits is that of the words. -/
theorem minus?_eq {a b : Int64} (h : FitsWord (a.toInt - b.toInt)) : minus? a b = some (a - b) := by
  rw [minus?, word?, if_pos h, Int64.ofInt_sub, Int64.ofInt_toInt, Int64.ofInt_toInt]

/-- A product that fits is that of the words. -/
theorem times?_eq {a b : Int64} (h : FitsWord (a.toInt * b.toInt)) : times? a b = some (a * b) := by
  rw [times?, word?, if_pos h, Int64.ofInt_mul, Int64.ofInt_toInt, Int64.ofInt_toInt]

/-! ### Times -/

/-- The seconds from one time to a later one can be said in a word. -/
def Near (earlier later : Int64) : Prop := FitsWord (later.toInt - earlier.toInt)

instance (earlier later : Int64) : Decidable (Near earlier later) :=
  inferInstanceAs (Decidable (FitsWord _))

/-- The last second that a timestamp in milliseconds can name. -/
def lastSecond : Int := 18446744073709551

/-- A time that a timestamp in milliseconds can name. -/
def Dated (time : Int64) : Prop := 0 ≤ time.toInt ∧ time.toInt ≤ lastSecond

/-- Between times that timestamps can name the distance fits. -/
theorem Dated.near {a b : Int64} (ha : Dated a) (hb : Dated b) : Near a b := by
  obtain ⟨ha₀, ha₁⟩ := ha
  obtain ⟨hb₀, hb₁⟩ := hb
  rw [lastSecond] at ha₁ hb₁
  exact fitsWord_iff.mpr (by omega)

/-- The second of a timestamp in milliseconds. -/
theorem dated_wholeSeconds (millis : UInt64) : Dated (wholeSeconds millis) := by
  have hmillis := millis.toNat_lt
  have hseconds : (millis / 1000).toNat = millis.toNat / 1000 := UInt64.toNat_div millis 1000
  have htoInt : (wholeSeconds millis).toInt = (millis / 1000).toNat :=
    Int64.toInt_ofNat_of_lt (by omega)
  rw [Dated, htoInt, lastSecond]
  omega

theorem dated_zero : Dated 0 := ⟨Int.le_refl 0, by decide⟩

/-! ### Durations of bars -/

namespace Timeframe

/-- Every bar lasts a second at least. -/
theorem seconds_pos (tf : Timeframe) : 0 < tf.seconds := by
  cases tf <;> decide

/-- No bar lasts longer than a day. -/
theorem seconds_le_day (tf : Timeframe) : tf.seconds ≤ 86400 := by
  cases tf <;> decide

theorem fitsWord_seconds (tf : Timeframe) : FitsWord tf.seconds := by
  cases tf <;> decide

/-- As many bars as a 32-bit number can count last no longer than a word can say. -/
theorem span_le (tf : Timeframe) (n : UInt32) :
    0 ≤ n.toNat * tf.seconds ∧ n.toNat * tf.seconds ≤ 4294967296 * 86400 := by
  have hcount := n.toNat_lt
  have hpos := tf.seconds_pos
  exact ⟨Int.mul_nonneg (by omega) (by omega),
    Int.mul_le_mul (by omega) tf.seconds_le_day (by omega) (by decide)⟩

private theorem toInt_mul_toInt (tf : Timeframe) (n : UInt32) :
    (Int64.ofNat n.toNat).toInt * (Int64.ofInt tf.seconds).toInt = n.toNat * tf.seconds := by
  rw [Int64.toInt_ofNat_of_lt (Nat.lt_trans n.toNat_lt (by decide)),
    toInt_ofInt_of_fitsWord tf.fitsWord_seconds]

/-- The duration of that many bars does not wrap around. -/
theorem fitsWord_span (tf : Timeframe) (n : UInt32) :
    FitsWord ((Int64.ofNat n.toNat).toInt * (Int64.ofInt tf.seconds).toInt) := by
  obtain ⟨hlow, hhigh⟩ := tf.span_le n
  rw [toInt_mul_toInt]
  exact fitsWord_iff.mpr (by omega)

theorem toInt_span (tf : Timeframe) (n : UInt32) :
    (Int64.ofNat n.toNat * Int64.ofInt tf.seconds).toInt = n.toNat * tf.seconds := by
  rw [toInt_mul_of_fitsWord (tf.fitsWord_span n), toInt_mul_toInt]

end Timeframe

/-- The time that many bars before one that timestamps can name is a word. -/
theorem Dated.fitsWord_sub {time : Int64} (h : Dated time) (tf : Timeframe) (n : UInt32) :
    FitsWord (time.toInt - n.toNat * tf.seconds) := by
  obtain ⟨hlow, hhigh⟩ := tf.span_le n
  obtain ⟨h₀, h₁⟩ := h
  rw [lastSecond] at h₁
  exact fitsWord_iff.mpr (by omega)

end TradeDesk
