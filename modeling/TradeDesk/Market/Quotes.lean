import TradeDesk.Market.Record
import TradeDesk.Table

/-!
# Quotes

The latest tick, trade print and index price of each instrument. A record takes the place of one
with the same or an earlier timestamp.

Spec: `SPEC_FULL.md` §C.3. Follows `QuoteBoard` of `market::quote_board`.
-/

namespace TradeDesk

/-- The latest record of each kind. -/
structure Quotes where
  ticks : Table Instrument Tick := .empty
  trades : Table Instrument TradePrint := .empty
  indices : Table Instrument IndexQuote := .empty

namespace Quotes

/-- Keeps a record unless a newer one is there. Follows `quote_board::store_latest`. -/
def storeLatest {α : Type} (timestamp : α → UInt64) (held : Table Instrument α) (key : Instrument)
    (a : α) : Table Instrument α :=
  match held.get? key with
  | some current => if timestamp a < timestamp current then held else held.insert key a
  | none => held.insert key a

def storeTick (q : Quotes) (t : Tick) : Quotes :=
  { q with ticks := storeLatest Tick.timestamp q.ticks t.key t }

def storeTrade (q : Quotes) (t : TradePrint) : Quotes :=
  { q with trades := storeLatest TradePrint.timestamp q.trades t.key t }

def storeIndex (q : Quotes) (i : IndexQuote) : Quotes :=
  { q with indices := storeLatest IndexQuote.timestamp q.indices i.key i }

/-- The last traded price of the latest tick. -/
def lastPrice? (q : Quotes) (key : Instrument) : Option Float := (q.ticks.get? key).map (·.last)

end Quotes

end TradeDesk
