import TradeDesk.Account.Record

/-!
# Requests

What the desk asks of a venue.

Spec: `SPEC_FULL.md` §6. Follows `ReqQryMoney` and its siblings of `protocol`, and the commands of
`execution`.
-/

namespace TradeDesk

open Json

/-- How an order is priced. -/
inductive PriceType where
  | market
  | limit
  deriving DecidableEq, Repr

namespace PriceType

def label : PriceType → String
  | market => "market"
  | limit => "limit"

instance : Codec PriceType where
  write t := .text t.label
  read := Codec.readName [("market", market), ("limit", limit)]

end PriceType

/-- Between which two accounts of a venue money moves. -/
inductive TransferDirection where
  | spotToFuture
  | futureToSpot
  deriving DecidableEq, Repr

namespace TransferDirection

def label : TransferDirection → String
  | spotToFuture => "spot_to_future"
  | futureToSpot => "future_to_spot"

instance : Codec TransferDirection where
  write d := .text d.label
  read := Codec.readName [("spot_to_future", spotToFuture), ("future_to_spot", futureToSpot)]

end TransferDirection

/-- Asks for the balances of a venue. -/
structure MoneyQuery where
  exchange : String

instance : Codec MoneyQuery where
  write q := .object [("exchange", write q.exchange)]
  read := FieldReader.record do
    return { exchange := ← FieldReader.required "exchange" }

/-- Asks for the position of an instrument. -/
structure PositionQuery where
  key : Instrument

instance : Codec PositionQuery where
  write q := .object q.key.members
  read := FieldReader.keyedRecord [] do
    return { key := ← Instrument.fields }

/-- Asks for one order by its id, or for all orders in a status. -/
structure OrderQuery where
  key : Instrument
  orderId : Option String
  status : Option OrderStatus

instance : Codec OrderQuery where
  write q := .object <| q.key.members ++
    (q.orderId.map fun id => ("order_id", write id)).toList ++
    (q.status.map fun s => ("status", write s)).toList
  read := FieldReader.keyedRecord ["order_id", "status"] do
    return {
      key := ← Instrument.fields
      orderId := ← FieldReader.optional "order_id" none
      status := ← FieldReader.optional "status" none }

/-- Moves money between two accounts of a venue. -/
structure TransferRequest where
  exchange : String
  symbol : String
  direction : TransferDirection
  amount : Float

instance : Codec TransferRequest where
  write t := .object
    [("exchange", write t.exchange), ("symbol", write t.symbol),
     ("direction", write t.direction), ("amount", write t.amount)]
  read := FieldReader.record do
    return {
      exchange := ← FieldReader.required "exchange"
      symbol := ← FieldReader.required "symbol"
      direction := ← FieldReader.required "direction"
      amount := ← FieldReader.required "amount" }

/-- Places an order. -/
structure OrderCommand where
  key : Instrument
  orderType : OrderType
  priceType : PriceType
  price : Float
  /-- The number of contracts. -/
  amount : Int64
  /-- The coin volume that the amount was sized from. -/
  vol : Float
  lever : Int32

instance : Codec OrderCommand where
  write c := .object <| c.key.members ++
    [("order_type", write c.orderType), ("price_type", write c.priceType),
     ("price", write c.price), ("amount", write c.amount), ("vol", write c.vol),
     ("lever", write c.lever)]
  read := FieldReader.keyedRecord
    ["order_type", "price_type", "price", "amount", "vol", "lever"] do
      return {
        key := ← Instrument.fields
        orderType := ← FieldReader.required "order_type"
        priceType := ← FieldReader.required "price_type"
        price := ← FieldReader.required "price"
        amount := ← FieldReader.required "amount"
        vol := ← FieldReader.required "vol"
        lever := ← FieldReader.required "lever" }

/-- Cancels working orders of an instrument. -/
structure CancelCommand where
  key : Instrument
  orderIds : List String

instance : Codec CancelCommand where
  write c := .object <| c.key.members ++ [("order_ids", write c.orderIds)]
  read := FieldReader.keyedRecord ["order_ids"] do
    return { key := ← Instrument.fields, orderIds := ← FieldReader.required "order_ids" }

end TradeDesk
