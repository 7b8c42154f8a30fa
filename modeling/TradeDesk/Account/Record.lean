import TradeDesk.Instrument

/-!
# Account records

What a venue holds for the desk: working orders, positions with a long and a short side, and
balances.

Spec: `SPEC_FULL.md` §3. Follows `Order`, `Position` and `Money` of `models`.
-/

namespace TradeDesk

open Json

/-- What has become of an order. -/
inductive OrderStatus where
  | canceled
  | waiting
  | partiallyFilled
  | complete
  | canceling
  deriving DecidableEq, Repr

namespace OrderStatus

/-- An order in one of these states is still working. -/
def isOpen : OrderStatus → Bool
  | waiting | partiallyFilled => true
  | _ => false

def label : OrderStatus → String
  | canceled => "canceled"
  | waiting => "waiting"
  | partiallyFilled => "partially_filled"
  | complete => "complete"
  | canceling => "canceling"

def names : List (String × OrderStatus) :=
  [canceled, waiting, partiallyFilled, complete, canceling].map fun s => (s.label, s)

instance : Codec OrderStatus where
  write s := .text s.label
  read := Codec.readName names

end OrderStatus

/-- The four things an order can do to a position. -/
inductive OrderType where
  | openLong
  | openShort
  | closeLong
  | closeShort
  deriving DecidableEq, Repr

namespace OrderType

def label : OrderType → String
  | openLong => "open_long"
  | openShort => "open_short"
  | closeLong => "close_long"
  | closeShort => "close_short"

def names : List (String × OrderType) :=
  [openLong, openShort, closeLong, closeShort].map fun t => (t.label, t)

instance : Codec OrderType where
  write t := .text t.label
  read := Codec.readName names

end OrderType

/-- A working order as a venue last reported it. -/
structure Order where
  key : Instrument
  orderId : String
  /-- Contracts asked for, and contracts filled. -/
  amount : Float
  dealAmount : Float
  price : Float
  priceAvg : Float
  fee : Float
  status : OrderStatus
  orderType : OrderType
  /-- The face value of one contract. -/
  unitAmount : Float
  lever : Int32
  contractName : String
  createdAt : String

instance : Codec Order where
  write o := .object
    [("key", write o.key), ("order_id", write o.orderId), ("amount", write o.amount),
     ("deal_amount", write o.dealAmount), ("price", write o.price),
     ("price_avg", write o.priceAvg), ("fee", write o.fee), ("status", write o.status),
     ("order_type", write o.orderType), ("unit_amount", write o.unitAmount),
     ("lever", write o.lever), ("contract_name", write o.contractName),
     ("created_at", write o.createdAt)]
  read := FieldReader.record do
    return {
      key := ← FieldReader.required "key"
      orderId := ← FieldReader.required "order_id"
      amount := ← FieldReader.required "amount"
      dealAmount := ← FieldReader.required "deal_amount"
      price := ← FieldReader.required "price"
      priceAvg := ← FieldReader.required "price_avg"
      fee := ← FieldReader.required "fee"
      status := ← FieldReader.required "status"
      orderType := ← FieldReader.required "order_type"
      unitAmount := ← FieldReader.required "unit_amount"
      lever := ← FieldReader.required "lever"
      contractName := ← FieldReader.required "contract_name"
      createdAt := ← FieldReader.required "created_at" }

/-- One side of a position. Venues report the first seven fields; the floating profit is computed
here, on ticks. -/
structure PositionSide where
  /-- Contracts held, and contracts that can be closed. -/
  amount : Float := 0.0
  available : Float := 0.0
  /-- The margin bound by the side. -/
  bond : Float := 0.0
  flatPrice : Float := 0.0
  priceAvg : Float := 0.0
  /-- The settlement base price. -/
  priceCost : Float := 0.0
  closeProfit : Float := 0.0
  floatProfit : Float := 0.0
  floatProfitRate : Float := 0.0

namespace PositionSide

/-- A side with nothing held. -/
def empty : PositionSide := {}

/-- The venue's fields of `venue` beside the floating profit of `s`. Follows
`PositionSide::apply_venue`. -/
def applyVenue (s venue : PositionSide) : PositionSide :=
  { venue with floatProfit := s.floatProfit, floatProfitRate := s.floatProfitRate }

instance : Codec PositionSide where
  write s := .object
    [("amount", write s.amount), ("available", write s.available), ("bond", write s.bond),
     ("flat_price", write s.flatPrice), ("price_avg", write s.priceAvg),
     ("price_cost", write s.priceCost), ("close_profit", write s.closeProfit),
     ("float_profit", write s.floatProfit), ("float_profit_rate", write s.floatProfitRate)]
  read := FieldReader.record do
    return {
      amount := ← FieldReader.optional "amount" 0.0
      available := ← FieldReader.optional "available" 0.0
      bond := ← FieldReader.optional "bond" 0.0
      flatPrice := ← FieldReader.optional "flat_price" 0.0
      priceAvg := ← FieldReader.optional "price_avg" 0.0
      priceCost := ← FieldReader.optional "price_cost" 0.0
      closeProfit := ← FieldReader.optional "close_profit" 0.0
      floatProfit := ← FieldReader.optional "float_profit" 0.0
      floatProfitRate := ← FieldReader.optional "float_profit_rate" 0.0 }

end PositionSide

/-- The cached position of one instrument. -/
structure Position where
  key : Instrument
  /-- False from an order until the next position answer. -/
  valid : Bool
  long : PositionSide
  short : PositionSide

namespace Position

/-- A trusted position with nothing held. -/
def flat (key : Instrument) : Position := ⟨key, true, .empty, .empty⟩

/-- The position taken for unreliable. Follows `Position::disable`. -/
def disable (p : Position) : Position := { p with valid := false }

/-- Neither side holds a contract. -/
def isFlat (p : Position) : Bool := p.long.amount ≤ 0.0 && p.short.amount ≤ 0.0

instance : Codec Position where
  write p := .object
    [("key", write p.key), ("valid", write p.valid), ("long", write p.long),
     ("short", write p.short)]
  read := FieldReader.record do
    return {
      key := ← FieldReader.required "key"
      valid := ← FieldReader.required "valid"
      long := ← FieldReader.required "long"
      short := ← FieldReader.required "short" }

end Position

/-- The balance of one currency on one venue. -/
structure Money where
  exchange : String
  symbol : String
  /-- What is available, and that together with the market value of positions. -/
  balance : Float
  rights : Float

namespace Money

/-- An account that holds nothing. -/
def zero (exchange symbol : String) : Money := ⟨exchange, symbol, 0.0, 0.0⟩

instance : Codec Money where
  write m := .object
    [("exchange", write m.exchange), ("symbol", write m.symbol), ("balance", write m.balance),
     ("rights", write m.rights)]
  read := FieldReader.record do
    return {
      exchange := ← FieldReader.required "exchange"
      symbol := ← FieldReader.required "symbol"
      balance := ← FieldReader.required "balance"
      rights := ← FieldReader.required "rights" }

end Money

end TradeDesk
