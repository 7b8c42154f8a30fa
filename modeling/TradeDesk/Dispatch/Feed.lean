import TradeDesk.Desk

/-!
# Market data

Messages of the market change the bars and quotes. Everything but a tick is claimed; a tick is
noted and goes on to the strategies.

Spec: `SPEC_FULL.md` §C.3. Follows `QuoteHandler` of `dispatch::quote`.
-/

namespace TradeDesk

/-- The reader of market data, with the number of bar updates it has passed on. -/
structure Feed where
  candles : Nat := 0
  deriving DecidableEq, Repr

namespace Feed

/-- One envelope; true claims it. Follows `QuoteHandler::handle`. -/
def handle (f : Feed) (d : Desk) (e : Envelope) : Bool × Feed × Desk :=
  match e.kind? with
  | some .tick =>
    match (e.decode : Except DeskError Tick) with
    | .ok tick => (false, f, { d with quotes := d.quotes.storeTick tick })
    | .error _ => (true, f, d)
  | some .candle =>
    match (e.decode : Except DeskError CandleUpdate) with
    | .ok u => (true, ⟨f.candles + 1⟩, { d with bars := (d.bars.add u.key u.timeframe u.candle).2 })
    | .error _ => (true, f, d)
  -- Order books are accepted and not kept.
  | some .depth => (true, f, d)
  | some .tradePrint =>
    match (e.decode : Except DeskError TradePrint) with
    | .ok t => (true, f, { d with quotes := d.quotes.storeTrade t })
    | .error _ => (true, f, d)
  | some .index =>
    match (e.decode : Except DeskError IndexQuote) with
    | .ok i => (true, f, { d with quotes := d.quotes.storeIndex i })
    | .error _ => (true, f, d)
  | _ => (false, f, d)

end Feed

end TradeDesk
