import TradeDesk.Account.Record

/-!
# Responses

What a venue answers. Every response carries a status; the error number zero means success.

Spec: `SPEC_FULL.md` §6. Follows `ApiStatus`, `RspQryMoney` and its siblings of `protocol`.
-/

namespace TradeDesk

open Json

/-- The outcome of a request. -/
structure ApiStatus where
  errorId : Int32 := 0
  errorMsg : String := ""
  deriving DecidableEq, Repr

namespace ApiStatus

def isOk (s : ApiStatus) : Bool := s.errorId = 0

instance : Codec ApiStatus where
  write s := .object [("error_id", write s.errorId), ("error_msg", write s.errorMsg)]
  read := FieldReader.record do
    return {
      errorId := ← FieldReader.optional "error_id" 0
      errorMsg := ← FieldReader.optional "error_msg" "" }

end ApiStatus

/-- The balance of one currency. -/
structure MoneyItem where
  symbol : String
  balance : Float
  rights : Float

instance : Codec MoneyItem where
  write m := .object
    [("symbol", write m.symbol), ("balance", write m.balance), ("rights", write m.rights)]
  read := FieldReader.record do
    return {
      symbol := ← FieldReader.required "symbol"
      balance := ← FieldReader.required "balance"
      rights := ← FieldReader.required "rights" }

/-- Answers `MoneyQuery`. -/
structure MoneyResponse where
  status : ApiStatus
  items : List MoneyItem

instance : Codec MoneyResponse where
  write r := .object [("status", write r.status), ("items", write r.items)]
  read := FieldReader.record do
    return {
      status := ← FieldReader.optional "status" {}
      items := ← FieldReader.optional "items" [] }

/-- Both sides of a position as the venue reports them. -/
structure PositionDetail where
  long : PositionSide
  short : PositionSide

instance : Codec PositionDetail where
  write p := .object [("long", write p.long), ("short", write p.short)]
  read := FieldReader.record do
    return {
      long := ← FieldReader.optional "long" .empty
      short := ← FieldReader.optional "short" .empty }

/-- Answers `PositionQuery`. -/
structure PositionResponse where
  status : ApiStatus
  symbol : String
  contract : String
  positions : List PositionDetail

instance : Codec PositionResponse where
  write r := .object
    [("status", write r.status), ("symbol", write r.symbol), ("contract_type", write r.contract),
     ("positions", write r.positions)]
  read := FieldReader.record do
    return {
      status := ← FieldReader.optional "status" {}
      symbol := ← FieldReader.required "symbol"
      contract := ← FieldReader.required "contract_type"
      positions := ← FieldReader.optional "positions" [] }

/-- Answers `OrderCommand`. -/
structure PlaceResponse where
  status : ApiStatus
  symbol : String
  contract : String
  orderId : String

instance : Codec PlaceResponse where
  write r := .object
    [("status", write r.status), ("symbol", write r.symbol), ("contract_type", write r.contract),
     ("order_id", write r.orderId)]
  read := FieldReader.record do
    return {
      status := ← FieldReader.optional "status" {}
      symbol := ← FieldReader.required "symbol"
      contract := ← FieldReader.required "contract_type"
      orderId := ← FieldReader.optional "order_id" "" }

/-- One order inside an answer to `OrderQuery`. -/
structure OrderInfo where
  symbol : String
  contract : String
  orderId : String
  amount : Float
  dealAmount : Float
  price : Float
  priceAvg : Float
  fee : Float
  status : OrderStatus
  orderType : OrderType
  unitAmount : Float
  lever : Int32
  contractName : String
  createdAt : String

namespace OrderInfo

/-- The order as the desk keeps it, for the venue that reported it. -/
def order (i : OrderInfo) (exchange : String) : Order where
  key := ⟨exchange, i.symbol, i.contract⟩
  orderId := i.orderId
  amount := i.amount
  dealAmount := i.dealAmount
  price := i.price
  priceAvg := i.priceAvg
  fee := i.fee
  status := i.status
  orderType := i.orderType
  unitAmount := i.unitAmount
  lever := i.lever
  contractName := i.contractName
  createdAt := i.createdAt

instance : Codec OrderInfo where
  write i := .object
    [("symbol", write i.symbol), ("contract_type", write i.contract),
     ("order_id", write i.orderId), ("amount", write i.amount),
     ("deal_amount", write i.dealAmount), ("price", write i.price),
     ("price_avg", write i.priceAvg), ("fee", write i.fee), ("status", write i.status),
     ("order_type", write i.orderType), ("unit_amount", write i.unitAmount),
     ("lever", write i.lever), ("contract_name", write i.contractName),
     ("created_at", write i.createdAt)]
  read := FieldReader.record do
    return {
      symbol := ← FieldReader.required "symbol"
      contract := ← FieldReader.required "contract_type"
      orderId := ← FieldReader.required "order_id"
      amount := ← FieldReader.required "amount"
      dealAmount := ← FieldReader.optional "deal_amount" 0.0
      price := ← FieldReader.optional "price" 0.0
      priceAvg := ← FieldReader.optional "price_avg" 0.0
      fee := ← FieldReader.optional "fee" 0.0
      status := ← FieldReader.required "status"
      orderType := ← FieldReader.required "order_type"
      unitAmount := ← FieldReader.optional "unit_amount" 0.0
      lever := ← FieldReader.optional "lever" 0
      contractName := ← FieldReader.optional "contract_name" ""
      createdAt := ← FieldReader.optional "created_at" "" }

end OrderInfo

/-- Answers `OrderQuery`. -/
structure OrdersResponse where
  status : ApiStatus
  orders : List OrderInfo

instance : Codec OrdersResponse where
  write r := .object [("status", write r.status), ("orders", write r.orders)]
  read := FieldReader.record do
    return {
      status := ← FieldReader.optional "status" {}
      orders := ← FieldReader.optional "orders" [] }

/-- Answers `CancelCommand`: the ids that were canceled and those that could not be. -/
structure CancelResponse where
  status : ApiStatus
  symbol : String
  contract : String
  success : List String
  errors : List String

instance : Codec CancelResponse where
  write r := .object
    [("status", write r.status), ("symbol", write r.symbol), ("contract_type", write r.contract),
     ("success", write r.success), ("errors", write r.errors)]
  read := FieldReader.record do
    return {
      status := ← FieldReader.optional "status" {}
      symbol := ← FieldReader.required "symbol"
      contract := ← FieldReader.required "contract_type"
      success := ← FieldReader.optional "success" []
      errors := ← FieldReader.optional "errors" [] }

/-- Answers `TransferRequest`. -/
structure TransferResponse where
  status : ApiStatus

instance : Codec TransferResponse where
  write r := .object [("status", write r.status)]
  read := FieldReader.record do
    return { status := ← FieldReader.optional "status" {} }

end TradeDesk
