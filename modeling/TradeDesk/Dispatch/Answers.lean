import TradeDesk.Desk

/-!
# Answers of venues

Answers of venues change the desk's accounts before any strategy sees the next tick. An answer whose
source has no trader is claimed and otherwise ignored, and so is a payload that does not decode.

Spec: `SPEC_FULL.md` §C.2. Follows `TradeHandler` of `dispatch::trade`.
-/

namespace TradeDesk

namespace Answers

/-- The answer to an order. Balance and position are asked for whatever the outcome; an accepted
order is confirmed and then asked for. Follows `TradeHandler::on_set_order`. -/
def onPlaced (d : Desk) (e : Envelope) (r : PlaceResponse) : Desk :=
  let key : Instrument := ⟨e.source, r.symbol, r.contract⟩
  let d := (d.queryAccount e.source).2
  let d := (d.queryPosition key).2
  if r.status.isOk then ((d.confirm e.reqSerial).2.queryOrder key r.orderId).2 else d

/-- Asks for each of some orders. -/
def queryOrders (d : Desk) (key : Instrument) (ids : List String) : Desk :=
  ids.foldl (fun d id => (d.queryOrder key id).2) d

/-- The answer to a cancellation: once confirmed, every order that it names is asked for. Follows
`TradeHandler::on_cancel`. -/
def onCanceled (d : Desk) (e : Envelope) (r : CancelResponse) : Desk :=
  if r.status.isOk then
    queryOrders (d.confirm e.reqSerial).2 ⟨e.source, r.symbol, r.contract⟩ (r.success ++ r.errors)
  else d

/-- The payload as a record, where it decodes, changes the desk; otherwise nothing does. Follows
`dispatch::decode_or_log`. -/
def whenDecoded {α : Type} [Json.Codec α] (d : Desk) (e : Envelope) (f : α → Desk) : Desk :=
  match (e.decode : Except DeskError α) with
  | .ok a => f a
  | .error _ => d

/-- An answer of a venue that has a trader. -/
def onAnswer (d : Desk) (e : Envelope) : MessageKind → Desk
  | .moneyAnswer => whenDecoded d e fun r =>
    { d with ledger := (d.ledger.applyMoney e.source r).2 }
  | .positionAnswer => whenDecoded d e fun r =>
    { d with ledger := (d.ledger.applyPositions e.source r).2 }
  | .ordersAnswer => whenDecoded d e fun r =>
    { d with ledger := (d.ledger.applyOrders e.source r).2 }
  | .placeAnswer => whenDecoded d e (onPlaced d e)
  | .cancelAnswer => whenDecoded d e (onCanceled d e)
  | .transferAnswer => whenDecoded d e fun (_ : TransferResponse) => (d.queryAccount e.source).2
  | _ => d

/-- Whether messages of a kind are answers of venues. -/
def isAnswer : MessageKind → Bool
  | .moneyAnswer | .positionAnswer | .ordersAnswer | .placeAnswer | .cancelAnswer
  | .transferAnswer => true
  | _ => false

/-- One envelope; true claims it. A tick reprices its position and goes on down the chain. Follows
`TradeHandler::handle`. -/
def handle (d : Desk) (e : Envelope) : Bool × Desk :=
  match e.kind? with
  | none => (false, d)
  | some .tick =>
    match (e.decode : Except DeskError Tick) with
    | .ok tick => (false, d.reprice tick)
    | .error _ => (true, d)
  | some kind =>
    if isAnswer kind then
      if d.traders.contains e.source then (true, onAnswer d e kind) else (true, d)
    else (false, d)

end Answers

end TradeDesk
