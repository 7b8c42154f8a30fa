/-!
# Moving averages

Spec: `SPEC_FULL.md` §4.3. Follows `indicators::moving_average`.
-/

namespace TradeDesk

/-- The mean of the `period` newest of some values, listed newest first and added up in that order;
there is none when there are too few values or the period is zero. Follows `calculate_sma`. -/
def movingAverage (newestFirst : List Float) (period : Nat) : Option Float :=
  let taken := newestFirst.take period
  if period = 0 ∨ taken.length < period then none
  else some (taken.foldl (· + ·) 0.0 / Float.ofNat period)

end TradeDesk
