import TradeDesk.Market.Record
import TradeDesk.Table
import TradeDesk.Wire.Envelope
import TradeDesk.Wire.Request

/-!
# Traders

The desk's side of one venue. A trader turns requests into envelopes, and it knows the venue's
contracts: they are inverse, each worth a fixed face value in the quote currency, and profit is
settled in coins.

The desk asks a venue through an `ExchangeTrade` of `execution`. There is one such adapter,
`PublishingTrader` of `execution::publisher`, and a `Trader` is the data of that one: its exchange
and its face values. An adapter is never handed the desk. It publishes envelopes and does
arithmetic, so nothing that a venue does reaches the desk but by an inbound envelope (`SPEC_FULL.md`
§5). Adapters with other arithmetic or other envelopes are outside this library.

Spec: `SPEC_FULL.md` §C.6.
-/

namespace TradeDesk

/-- What can be asked of a venue. -/
inductive Request where
  | account
  | position (key : Instrument)
  | place (command : OrderCommand)
  | order (key : Instrument) (orderId : String)
  | ordersByStatus (key : Instrument) (status : OrderStatus)
  | cancel (command : CancelCommand)
  | transfer (symbol : String) (direction : TransferDirection) (amount : Float)

/-- The desk's side of one venue, with the face value of a contract for each symbol: the data of a
`PublishingTrader`, whose channel is the desk's outbox. -/
structure Trader where
  exchange : String
  faceValues : Table String Float

namespace Trader

/-- The face value of one contract. -/
def faceValue? (t : Trader) (symbol : String) : Option Float := t.faceValues.get? symbol

/-- The envelope of a request. Follows the requests of `PublishingTrader`, each of which publishes
one envelope. -/
def envelope (t : Trader) (serial : UInt32) : Request → Envelope
  | .account => .encode .queryMoney serial t.exchange (⟨t.exchange⟩ : MoneyQuery)
  | .position key => .encode .queryPosition serial t.exchange (⟨key⟩ : PositionQuery)
  | .place command => .encode .placeOrder serial t.exchange command
  | .order key orderId =>
    .encode .queryOrders serial t.exchange (⟨key, some orderId, none⟩ : OrderQuery)
  | .ordersByStatus key status =>
    .encode .queryOrders serial t.exchange (⟨key, none, some status⟩ : OrderQuery)
  | .cancel command => .encode .cancelOrders serial t.exchange command
  | .transfer symbol direction amount =>
    .encode .transferMoney serial t.exchange
      (⟨t.exchange, symbol, direction, amount⟩ : TransferRequest)

/-- How many whole contracts `vol` coins are at `price`; there are none below one contract, and none
of an unknown symbol. Follows `PublishingTrader::compute_contract_amount`. -/
def contractAmount? (t : Trader) (symbol : String) (price vol : Float) : Option Int64 := do
  let face ← t.faceValue? symbol
  let contracts := price * vol / face
  if contracts < 1.0 then none else some (Binary64.floorWord contracts)

/-- A side without floating profit. -/
def sideAtRest (s : PositionSide) : PositionSide :=
  { s with floatProfit := 0.0, floatProfitRate := 0.0 }

/-- A side with its floating profit taken from the profit of one contract at the side's cost. A side
that holds nothing, cost nothing or binds no margin has none. Follows `publisher::update_side`. -/
def floatSide (perContract : Float → Float) (s : PositionSide) : PositionSide :=
  if s.amount ≤ 0.0 || s.priceCost ≤ 0.0 || s.bond ≤ 0.0 then sideAtRest s
  else
    let profit := perContract s.priceCost * s.amount
    { s with floatProfit := profit, floatProfitRate := profit / s.bond }

/-- A position with its floating profit at the last price. A long side gains when the coin value of
a contract shrinks. Without a face value or a positive price there is no profit. Follows
`PublishingTrader::compute_position_profit`. -/
def floatProfit (t : Trader) (p : Position) (last : Float) : Position :=
  let atRest := { p with long := sideAtRest p.long, short := sideAtRest p.short }
  match t.faceValue? p.key.symbol with
  | none => atRest
  | some face =>
    if last ≤ 0.0 then atRest
    else
      { p with
        long := floatSide (fun cost => face / cost - face / last) p.long
        short := floatSide (fun cost => face / last - face / cost) p.short }

end Trader

end TradeDesk
