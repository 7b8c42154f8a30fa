import TradeDesk.Table

/-!
# The tally

What a strategy's orders came to, for each of its symbols and in all, and the number of losses at
which trading rests. Symbols that were not named at the start are not counted.

Spec: `SPEC_FULL.md` §C.7. Follows `TradeStats` of `strategy::mavg::stats`.
-/

namespace TradeDesk.Mavg

/-- The counters of one symbol, or of all. Volumes are in coins. -/
structure Counters where
  operations : UInt32 := 0
  opens : UInt32 := 0
  closes : UInt32 := 0
  wins : UInt32 := 0
  winVolume : Float := 0.0
  losses : UInt32 := 0
  lossVolume : Float := 0.0

namespace Counters

def countOpen (s : Counters) : Counters :=
  { s with operations := s.operations + 1, opens := s.opens + 1 }

/-- Counts a close by its profit in coins; without profit it is a loss. -/
def countClose (profit : Float) (s : Counters) : Counters :=
  let s := { s with operations := s.operations + 1, closes := s.closes + 1 }
  if 0.0 < profit then { s with wins := s.wins + 1, winVolume := s.winVolume + profit }
  else { s with losses := s.losses + 1, lossVolume := s.lossVolume - profit }

end Counters

/-- The tally of a strategy. -/
structure Tally where
  totals : Counters
  symbols : Table String Counters
  lossLimit : UInt32
  lossLimitStep : UInt32

namespace Tally

/-- Nothing counted yet; the first limit is one step. -/
def start (symbols : List String) (lossLimitStep : UInt32) : Tally :=
  ⟨{}, .ofList (symbols.map fun s => (s, {})), lossLimitStep, lossLimitStep⟩

/-- Counts in a symbol and in all, if the symbol is one of those named. -/
def count (t : Tally) (symbol : String) (f : Counters → Counters) : Tally :=
  match t.symbols.get? symbol with
  | some c => { t with symbols := t.symbols.insert symbol (f c), totals := f t.totals }
  | none => t

/-- Counts an opening. Follows `TradeStats::record_open`. -/
def noteOpen (t : Tally) (symbol : String) : Tally := t.count symbol Counters.countOpen

/-- Counts a close. Follows `TradeStats::record_close`. -/
def noteClose (t : Tally) (symbol : String) (profit : Float) : Tally :=
  t.count symbol (Counters.countClose profit)

/-- There are as many losses as the limit allows. Follows `TradeStats::over_loss_limit`. -/
def limitReached (t : Tally) : Bool := t.lossLimit ≤ t.totals.losses

def raiseLimit (t : Tally) : Tally := { t with lossLimit := t.lossLimit + t.lossLimitStep }

end Tally

end TradeDesk.Mavg
