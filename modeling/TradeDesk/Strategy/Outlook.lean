import TradeDesk.Desk

/-!
# The outlook

What observers gather about one tick before the strategy decides. It is built anew for every tick.

Spec: `SPEC_FULL.md` §3, `EventCompose`. Follows `strategy::compose`.
-/

namespace TradeDesk

open Json

/-- A trading signal. -/
inductive Signal where
  | buy
  | sell
  | hold
  deriving DecidableEq, Repr, Inhabited

namespace Signal

def label : Signal → String
  | buy => "Buy"
  | sell => "Sell"
  | hold => "Hold"

instance : Codec Signal where
  write s := .text s.label
  read := Codec.readName [(buy.label, buy), (sell.label, sell), (hold.label, hold)]

end Signal

/-- What is known when a strategy decides on a tick. -/
structure Outlook where
  key : Instrument
  /-- The cached position of the instrument. -/
  position : Option Position := none
  balance : Float := 0.0
  rights : Float := 0.0
  /-- The signal of each timeframe that an observer has read. -/
  signals : Table Timeframe Signal := .empty

namespace Outlook

/-- The outlook before any observer has added to it. -/
def start (key : Instrument) : Outlook := { key := key }

/-- The signal of a timeframe; without one, hold. -/
def signal (o : Outlook) (tf : Timeframe) : Signal := (o.signals.get? tf).getD .hold

/-- The position, if it can be relied on. -/
def validPosition? (o : Outlook) : Option Position := o.position.filter (·.valid)

end Outlook

end TradeDesk
