import TradeDesk.Mavg.Signal
import TradeDesk.Proofs.Number.Sign

/-!
# Long and short alike

Upside down, lines fall where they rose and cross the other way. The signal of a reading that is
turned upside down is the opposite signal, so no comparison favours one side.
-/

namespace TradeDesk

/-- The other way across. -/
def CrossDirection.mirror : CrossDirection → CrossDirection
  | .belowToAbove => .aboveToBelow
  | .aboveToBelow => .belowToAbove

/-- The opposite signal. -/
def Signal.mirror : Signal → Signal
  | .buy => .sell
  | .sell => .buy
  | .hold => .hold

namespace Mavg

namespace Reading

/-- What the lines look like upside down. -/
def mirror (r : Reading) : Reading where
  fastSlope := -r.fastSlope
  slowSlope := -r.slowSlope
  diffSlope := r.diffSlope
  gap := r.gap
  lastCrossing := r.lastCrossing.map .mirror

/-- Something is too close to zero. -/
def flat (r : Reading) : Bool :=
  r.fastSlope.abs < flatness || r.slowSlope.abs < flatness || r.gap.abs < flatness

/-- Both lines rise steeply. -/
def rising (r : Reading) (limits : SignalLimits) : Bool :=
  limits.fastSlope ≤ r.fastSlope && limits.slowSlope < r.slowSlope

/-- Both lines fall steeply. -/
def falling (r : Reading) (limits : SignalLimits) : Bool :=
  r.fastSlope ≤ -limits.fastSlope && r.slowSlope < -limits.slowSlope

/-- The fast line turns up against the slow one. -/
def turnsUp (r : Reading) (limits : SignalLimits) : Bool :=
  limits.fastSlope < r.fastSlope && r.slowSlope < 0.0 && r.diffSlope < limits.diffSlope

/-- The fast line turns down against the slow one. -/
def turnsDown (r : Reading) (limits : SignalLimits) : Bool :=
  r.fastSlope < -limits.fastSlope && 0.0 < r.slowSlope && r.diffSlope < limits.diffSlope

variable (r : Reading) (limits : SignalLimits)

theorem flat_mirror : r.mirror.flat = r.flat := by
  unfold flat mirror
  rw [Binary64.abs_neg, Binary64.abs_neg]

/-- What rises upside down falls. -/
theorem rising_mirror : r.mirror.rising limits = r.falling limits :=
  congrArg₂ (· && ·) (decide_eq_decide.mpr Binary64.le_neg_comm)
    (decide_eq_decide.mpr Binary64.lt_neg_comm)

theorem falling_mirror : r.mirror.falling limits = r.rising limits :=
  congrArg₂ (· && ·) (decide_eq_decide.mpr Binary64.neg_le_neg_iff)
    (decide_eq_decide.mpr Binary64.neg_lt_neg_iff)

/-- A turn up is upside down a turn down. -/
theorem turnsUp_mirror : r.mirror.turnsUp limits = r.turnsDown limits :=
  congrArg (· && decide (r.diffSlope < limits.diffSlope))
    (congrArg₂ (· && ·) (decide_eq_decide.mpr Binary64.lt_neg_comm)
      (decide_eq_decide.mpr Binary64.neg_lt_zero_iff))

theorem turnsDown_mirror : r.mirror.turnsDown limits = r.turnsUp limits :=
  congrArg (· && decide (r.diffSlope < limits.diffSlope))
    (congrArg₂ (· && ·) (decide_eq_decide.mpr Binary64.neg_lt_neg_iff)
      (decide_eq_decide.mpr Binary64.zero_lt_neg_iff))

variable {r limits}

/-- Beyond a slope that is not negative, lines do not both rise and fall. -/
theorem falling_eq_false_of_rising (hslow : 0.0 ≤ limits.slowSlope)
    (hrising : r.rising limits = true) : r.falling limits = false := by
  simp only [rising, Bool.and_eq_true, decide_eq_true_eq] at hrising
  simp only [falling, Bool.and_eq_false_iff, decide_eq_false_iff_not]
  right
  intro hbelow
  have hpos : 0.0 < r.slowSlope := Binary64.pos_of_lt_of_nonneg hslow hrising.2
  have hneg : 0.0 < -r.slowSlope :=
    Binary64.pos_of_lt_of_nonneg hslow (Binary64.lt_neg_comm.mp hbelow)
  exact Binary64.lt_asymm hpos (Binary64.zero_lt_neg_iff.mp hneg)

/-- The fast line does not turn against the slow one in both ways. -/
theorem turnsDown_eq_false_of_turnsUp (hup : r.turnsUp limits = true) :
    r.turnsDown limits = false := by
  simp only [turnsUp, Bool.and_eq_true, decide_eq_true_eq] at hup
  simp only [turnsDown, Bool.and_eq_false_iff, decide_eq_false_iff_not]
  exact Or.inl (Or.inr (Binary64.lt_asymm hup.1.2))

end Reading

/-- The signal of a reading, in terms of what its lines do. -/
theorem classify_eq (r : Reading) (limits : SignalLimits) :
    classify r limits =
      if r.flat then .hold
      else
        match r.lastCrossing with
        | none =>
          if r.diffSlope ≤ limits.diffSlope then .hold
          else if r.rising limits then .buy
          else if r.falling limits then .sell
          else .hold
        | some direction =>
          if r.turnsUp limits then .buy
          else if r.turnsDown limits then .sell
          else if r.falling limits && direction = .aboveToBelow && limits.minDiff ≤ r.gap then .sell
          else if r.rising limits && direction = .belowToAbove && limits.minDiff ≤ r.gap then .buy
          else .hold :=
  rfl

/-- Of two cases that exclude each other either may be looked at first. -/
private theorem ite_swap {α : Type} {a b : Bool} (h : a = true → b = false) (x y z : α) :
    (if a then x else if b then y else z) = if b then y else if a then x else z := by
  cases a with
  | false => rfl
  | true =>
    rw [h rfl]
    rfl

private theorem mirror_ite (c : Prop) [Decidable c] (s t : Signal) :
    (if c then s else t).mirror = if c then s.mirror else t.mirror :=
  apply_ite Signal.mirror c s t

/-- Long and short are treated alike: the signal of a reading turned upside down is the opposite of
its signal. Without a crossing this needs a threshold of the slow line that is not negative, beyond
which lines do not both rise and fall. -/
theorem classify_mirror (r : Reading) (limits : SignalLimits) (hslow : 0.0 ≤ limits.slowSlope) :
    classify r.mirror limits = (classify r limits).mirror := by
  rw [classify_eq, classify_eq, r.flat_mirror, r.rising_mirror, r.falling_mirror,
    r.turnsUp_mirror, r.turnsDown_mirror, mirror_ite]
  congr 1
  have hcrossing : r.mirror.lastCrossing = r.lastCrossing.map .mirror := rfl
  rw [hcrossing]
  cases r.lastCrossing with
  | none =>
    have hrising : r.rising limits = true → r.falling limits = false :=
      Reading.falling_eq_false_of_rising hslow
    simp only [Option.map_none, mirror_ite]
    rw [ite_swap hrising]
    rfl
  | some direction =>
    have hturns : r.turnsUp limits = true → r.turnsDown limits = false :=
      Reading.turnsDown_eq_false_of_turnsUp
    simp only [Option.map_some, mirror_ite]
    rw [ite_swap hturns]
    congr 2
    -- of trends only the one that the crossing agrees with is left
    cases direction with
    | belowToAbove => cases r.rising limits <;> cases r.falling limits <;> rfl
    | aboveToBelow => cases r.rising limits <;> cases r.falling limits <;> rfl

/-- Limits with which a fast line that rises also falls. -/
def loose : SignalLimits := ⟨-1.0, 0.04, 0.03, 1.2⟩

/-- A turn up overrides a falling trend that the crossing confirms, and upside down a turn down
overrides a rising one. -/
theorem classify_mirror_of_turn :
    let r : Reading := ⟨0.5, -0.2, 0.01, 2.0, some .aboveToBelow⟩
    0.0 ≤ loose.slowSlope ∧ r.falling loose = true ∧ r.turnsUp loose = true ∧
      classify r loose = .buy ∧ classify r.mirror loose = .sell := by
  intro r
  have hslow : 0.0 ≤ loose.slowSlope := by decide
  have hbuy : classify r loose = .buy := by decide +kernel
  refine ⟨hslow, by decide +kernel, by decide +kernel, hbuy, ?_⟩
  rw [classify_mirror r loose hslow, hbuy]
  rfl

end Mavg

end TradeDesk
