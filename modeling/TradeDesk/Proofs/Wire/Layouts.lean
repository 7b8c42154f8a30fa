import TradeDesk.Market.Record
import TradeDesk.Proofs.Json.Layout
import TradeDesk.Wire.Request
import TradeDesk.Wire.Response

/-!
# The layouts of the records

The fields of every record that is sent, received or stored, in the order in which they are written.
That a record is written, read and made as its layout says is a matter of evaluation; all else about
it follows from the layout.
-/

namespace TradeDesk

open Json
open Json.FieldCodec (required withDefault orZero omittable)

/-! ### Named constants -/

instance : Faithful Timeframe := .ofPlain (fun _ ↦ rfl) fun t _ ↦ by cases t <;> rfl

instance : Faithful TradeSide := .ofPlain (fun _ ↦ rfl) fun s _ ↦ by cases s <;> rfl

instance : Faithful OrderStatus := .ofPlain (fun _ ↦ rfl) fun s _ ↦ by cases s <;> rfl

instance : Faithful OrderType := .ofPlain (fun _ ↦ rfl) fun t _ ↦ by cases t <;> rfl

instance : Faithful PriceType := .ofPlain (fun _ ↦ rfl) fun t _ ↦ by cases t <;> rfl

instance : Faithful TransferDirection := .ofPlain (fun _ ↦ rfl) fun d _ ↦ by cases d <;> rfl

/-! ### Market records -/

namespace Tick

def layout :=
  Layout.field .instrument key <| .field (required "timestamp") timestamp <|
  .field (orZero "vol") vol <| .field (orZero "high") high <| .field (orZero "low") low <|
  .field (orZero "day_vol") dayVol <| .field (orZero "day_high") dayHigh <|
  .field (orZero "day_low") dayLow <| .field (required "last") last <|
  .field (orZero "bid") bid <| .field (orZero "ask") ask <|
  .field (orZero "bid_vol") bidVol <| .field (orZero "ask_vol") askVol .done

theorem fits : layout.Fits mk := ⟨fun _ ↦ rfl, fun _ ↦ rfl, fun _ ↦ rfl, by decide⟩

instance : Faithful Tick := .ofKeyedRecord fits rfl

end Tick

namespace TradePrint

def layout :=
  Layout.field .instrument key <| .field (required "timestamp") timestamp <|
  .field (required "price") price <| .field (required "amount") amount <|
  .field (required "side") side .done

theorem fits : layout.Fits mk := ⟨fun _ ↦ rfl, fun _ ↦ rfl, fun _ ↦ rfl, by decide⟩

instance : Faithful TradePrint := .ofKeyedRecord fits rfl

end TradePrint

namespace IndexQuote

def layout :=
  Layout.field .instrument key <| .field (required "timestamp") timestamp <|
  .field (required "index") index .done

theorem fits : layout.Fits mk := ⟨fun _ ↦ rfl, fun _ ↦ rfl, fun _ ↦ rfl, by decide⟩

instance : Faithful IndexQuote := .ofKeyedRecord fits rfl

end IndexQuote

namespace Candle

def layout :=
  Layout.field (required "timestamp") timestamp <| .field (required "open") opening <|
  .field (required "high") high <| .field (required "low") low <|
  .field (required "close") close <| .field (required "volume") volume <|
  .field (required "amount") amount .done

theorem fits : layout.Fits mk := ⟨fun _ ↦ rfl, fun _ ↦ rfl, fun _ ↦ rfl, by decide⟩

instance : Faithful Candle := .ofRecord fits rfl

end Candle

namespace CandleUpdate

def layout :=
  Layout.field .instrument key <| .field (required "timeframe") timeframe <|
  .field (required "timestamp") timestamp <| .field (required "open") opening <|
  .field (required "high") high <| .field (required "low") low <|
  .field (required "close") close <| .field (orZero "volume") volume <|
  .field (orZero "amount") amount .done

theorem fits : layout.Fits mk := ⟨fun _ ↦ rfl, fun _ ↦ rfl, fun _ ↦ rfl, by decide⟩

instance : Faithful CandleUpdate := .ofKeyedRecord fits rfl

end CandleUpdate

namespace Depth

def layout :=
  Layout.field .instrument key <| .field (required "timestamp") timestamp <|
  .field (withDefault "bids" [] (by decide)) bids <| .field (withDefault "asks" [] (by decide)) asks .done

theorem fits : layout.Fits mk := ⟨fun _ ↦ rfl, fun _ ↦ rfl, fun _ ↦ rfl, by decide⟩

instance : Faithful Depth := .ofKeyedRecord fits rfl

end Depth

/-! ### Account records -/

namespace Instrument

def layout :=
  Layout.field (required "exchange") exchange <| .field (required "symbol") symbol <|
  .field (required "contract_type") contract .done

theorem fits : layout.Fits mk := ⟨fun _ ↦ rfl, fun _ ↦ rfl, fun _ ↦ rfl, by decide⟩

instance : Faithful Instrument := .ofRecord fits rfl

end Instrument

namespace Order

def layout :=
  Layout.field (required "key") key <| .field (required "order_id") orderId <|
  .field (required "amount") amount <| .field (required "deal_amount") dealAmount <|
  .field (required "price") price <| .field (required "price_avg") priceAvg <|
  .field (required "fee") fee <| .field (required "status") status <|
  .field (required "order_type") orderType <| .field (required "unit_amount") unitAmount <|
  .field (required "lever") lever <| .field (required "contract_name") contractName <|
  .field (required "created_at") createdAt .done

theorem fits : layout.Fits mk := ⟨fun _ ↦ rfl, fun _ ↦ rfl, fun _ ↦ rfl, by decide⟩

instance : Faithful Order := .ofRecord fits rfl

end Order

namespace PositionSide

def layout :=
  Layout.field (orZero "amount") amount <| .field (orZero "available") available <|
  .field (orZero "bond") bond <| .field (orZero "flat_price") flatPrice <|
  .field (orZero "price_avg") priceAvg <| .field (orZero "price_cost") priceCost <|
  .field (orZero "close_profit") closeProfit <| .field (orZero "float_profit") floatProfit <|
  .field (orZero "float_profit_rate") floatProfitRate .done

theorem fits : layout.Fits mk := ⟨fun _ ↦ rfl, fun _ ↦ rfl, fun _ ↦ rfl, by decide⟩

instance : Faithful PositionSide := .ofRecord fits rfl

theorem finite_empty : ∀ x ∈ (Codec.write empty).floats, x.isFinite = true := by decide +kernel

end PositionSide

namespace Position

def layout :=
  Layout.field (required "key") key <| .field (required "valid") valid <|
  .field (required "long") long <| .field (required "short") short .done

theorem fits : layout.Fits mk := ⟨fun _ ↦ rfl, fun _ ↦ rfl, fun _ ↦ rfl, by decide⟩

instance : Faithful Position := .ofRecord fits rfl

end Position

namespace Money

def layout :=
  Layout.field (required "exchange") exchange <| .field (required "symbol") symbol <|
  .field (required "balance") balance <| .field (required "rights") rights .done

theorem fits : layout.Fits mk := ⟨fun _ ↦ rfl, fun _ ↦ rfl, fun _ ↦ rfl, by decide⟩

instance : Faithful Money := .ofRecord fits rfl

end Money

/-! ### Requests -/

namespace MoneyQuery

def layout := Layout.field (required "exchange") exchange .done

theorem fits : layout.Fits mk := ⟨fun _ ↦ rfl, fun _ ↦ rfl, fun _ ↦ rfl, by decide⟩

instance : Faithful MoneyQuery := .ofRecord fits rfl

end MoneyQuery

namespace PositionQuery

def layout := Layout.field .instrument key .done

theorem fits : layout.Fits mk := ⟨fun _ ↦ rfl, fun _ ↦ rfl, fun _ ↦ rfl, by decide⟩

instance : Faithful PositionQuery := .ofKeyedRecord fits rfl

end PositionQuery

namespace OrderQuery

def layout :=
  Layout.field .instrument key <| .field (omittable "order_id" fun _ ↦ rfl) orderId <|
  .field (omittable "status" fun _ ↦ rfl) status .done

theorem fits : layout.Fits mk where
  write_eq q := by
    rcases q with ⟨_, _ | _, _ | _⟩ <;> rfl
  make_project _ := rfl
  project_make _ := rfl
  nodup_names := by decide

instance : Faithful OrderQuery := .ofKeyedRecord fits rfl

end OrderQuery

namespace OrderCommand

def layout :=
  Layout.field .instrument key <| .field (required "order_type") orderType <|
  .field (required "price_type") priceType <| .field (required "price") price <|
  .field (required "amount") amount <| .field (required "vol") vol <|
  .field (required "lever") lever .done

theorem fits : layout.Fits mk := ⟨fun _ ↦ rfl, fun _ ↦ rfl, fun _ ↦ rfl, by decide⟩

instance : Faithful OrderCommand := .ofKeyedRecord fits rfl

end OrderCommand

namespace CancelCommand

def layout := Layout.field .instrument key <| .field (required "order_ids") orderIds .done

theorem fits : layout.Fits mk := ⟨fun _ ↦ rfl, fun _ ↦ rfl, fun _ ↦ rfl, by decide⟩

instance : Faithful CancelCommand := .ofKeyedRecord fits rfl

end CancelCommand

namespace TransferRequest

def layout :=
  Layout.field (required "exchange") exchange <| .field (required "symbol") symbol <|
  .field (required "direction") direction <| .field (required "amount") amount .done

theorem fits : layout.Fits mk := ⟨fun _ ↦ rfl, fun _ ↦ rfl, fun _ ↦ rfl, by decide⟩

instance : Faithful TransferRequest := .ofRecord fits rfl

end TransferRequest

/-! ### Responses -/

namespace ApiStatus

def layout :=
  Layout.field (withDefault "error_id" (0 : Int32) (by decide)) errorId <|
  .field (withDefault "error_msg" "" (by decide)) errorMsg .done

theorem fits : layout.Fits mk := ⟨fun _ ↦ rfl, fun _ ↦ rfl, fun _ ↦ rfl, by decide⟩

instance : Faithful ApiStatus := .ofRecord fits rfl

/-- The status inside a response; a response without one is a success. -/
def part : FieldCodec ApiStatus := withDefault "status" {} (by decide)

end ApiStatus

namespace MoneyItem

def layout :=
  Layout.field (required "symbol") symbol <| .field (required "balance") balance <|
  .field (required "rights") rights .done

theorem fits : layout.Fits mk := ⟨fun _ ↦ rfl, fun _ ↦ rfl, fun _ ↦ rfl, by decide⟩

instance : Faithful MoneyItem := .ofRecord fits rfl

end MoneyItem

namespace MoneyResponse

def layout :=
  Layout.field ApiStatus.part status <| .field (withDefault "items" [] (by decide)) items .done

theorem fits : layout.Fits mk := ⟨fun _ ↦ rfl, fun _ ↦ rfl, fun _ ↦ rfl, by decide⟩

instance : Faithful MoneyResponse := .ofRecord fits rfl

end MoneyResponse

namespace PositionDetail

def layout :=
  Layout.field (withDefault "long" .empty PositionSide.finite_empty) long <|
  .field (withDefault "short" .empty PositionSide.finite_empty) short .done

theorem fits : layout.Fits mk := ⟨fun _ ↦ rfl, fun _ ↦ rfl, fun _ ↦ rfl, by decide⟩

instance : Faithful PositionDetail := .ofRecord fits rfl

end PositionDetail

namespace PositionResponse

def layout :=
  Layout.field ApiStatus.part status <| .field (required "symbol") symbol <|
  .field (required "contract_type") contract <|
  .field (withDefault "positions" [] (by decide)) positions .done

theorem fits : layout.Fits mk := ⟨fun _ ↦ rfl, fun _ ↦ rfl, fun _ ↦ rfl, by decide⟩

instance : Faithful PositionResponse := .ofRecord fits rfl

end PositionResponse

namespace PlaceResponse

def layout :=
  Layout.field ApiStatus.part status <| .field (required "symbol") symbol <|
  .field (required "contract_type") contract <|
  .field (withDefault "order_id" "" (by decide)) orderId .done

theorem fits : layout.Fits mk := ⟨fun _ ↦ rfl, fun _ ↦ rfl, fun _ ↦ rfl, by decide⟩

instance : Faithful PlaceResponse := .ofRecord fits rfl

end PlaceResponse

namespace OrderInfo

def layout :=
  Layout.field (required "symbol") symbol <| .field (required "contract_type") contract <|
  .field (required "order_id") orderId <| .field (required "amount") amount <|
  .field (orZero "deal_amount") dealAmount <| .field (orZero "price") price <|
  .field (orZero "price_avg") priceAvg <| .field (orZero "fee") fee <|
  .field (required "status") status <| .field (required "order_type") orderType <|
  .field (orZero "unit_amount") unitAmount <| .field (withDefault "lever" (0 : Int32) (by decide)) lever <|
  .field (withDefault "contract_name" "" (by decide)) contractName <|
  .field (withDefault "created_at" "" (by decide)) createdAt .done

theorem fits : layout.Fits mk := ⟨fun _ ↦ rfl, fun _ ↦ rfl, fun _ ↦ rfl, by decide⟩

instance : Faithful OrderInfo := .ofRecord fits rfl

end OrderInfo

namespace OrdersResponse

def layout :=
  Layout.field ApiStatus.part status <| .field (withDefault "orders" [] (by decide)) orders .done

theorem fits : layout.Fits mk := ⟨fun _ ↦ rfl, fun _ ↦ rfl, fun _ ↦ rfl, by decide⟩

instance : Faithful OrdersResponse := .ofRecord fits rfl

end OrdersResponse

namespace CancelResponse

def layout :=
  Layout.field ApiStatus.part status <| .field (required "symbol") symbol <|
  .field (required "contract_type") contract <| .field (withDefault "success" [] (by decide)) success <|
  .field (withDefault "errors" [] (by decide)) errors .done

theorem fits : layout.Fits mk := ⟨fun _ ↦ rfl, fun _ ↦ rfl, fun _ ↦ rfl, by decide⟩

instance : Faithful CancelResponse := .ofRecord fits rfl

end CancelResponse

namespace TransferResponse

def layout := Layout.field ApiStatus.part status .done

theorem fits : layout.Fits mk := ⟨fun _ ↦ rfl, fun _ ↦ rfl, fun _ ↦ rfl, by decide⟩

instance : Faithful TransferResponse := .ofRecord fits rfl

end TransferResponse

end TradeDesk
