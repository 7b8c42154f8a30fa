import TradeDesk.Account.Pending
import TradeDesk.Account.Trader
import TradeDesk.Wire.Response

/-!
# The ledger

What the desk knows of its accounts: working orders, positions, balances and pending requests. Only
answers of venues change orders and balances, and an answer that carries an error changes nothing.

Spec: `SPEC_FULL.md` §4.4. Follows `Keeper` of `execution::keeper`.
-/

namespace TradeDesk

/-- The desk's view of its accounts. -/
structure Ledger where
  /-- Working orders, in the order in which they were first seen. -/
  orders : List Order := []
  positions : Table Instrument Position := .empty
  /-- Balances by exchange and symbol. -/
  money : Table (String × String) Money := .empty
  pending : Pending := .empty

namespace Ledger

/-- Nothing known. -/
def empty : Ledger := {}

/-- The position of an instrument, or an empty trusted one. -/
def positionOrFlat (k : Ledger) (key : Instrument) : Position :=
  (k.positions.get? key).getD (.flat key)

/-- The balance of a currency, or zero. -/
def moneyOrZero (k : Ledger) (exchange symbol : String) : Money :=
  (k.money.get? (exchange, symbol)).getD (.zero exchange symbol)

def setPosition (k : Ledger) (p : Position) : Ledger :=
  { k with positions := k.positions.insert p.key p }

def setMoney (k : Ledger) (m : Money) : Ledger :=
  { k with money := k.money.insert (m.exchange, m.symbol) m }

/-- Makes sure that an instrument has a position. Follows `Keeper::get_or_create_position`. -/
def createPosition (k : Ledger) (key : Instrument) : Ledger :=
  { k with positions := k.positions.insert key (k.positionOrFlat key) }

/-- Makes sure that a currency has a balance. Follows `Keeper::get_or_create_money`. -/
def createMoney (k : Ledger) (exchange symbol : String) : Ledger :=
  { k with money := k.money.insert (exchange, symbol) (k.moneyOrZero exchange symbol) }

/-- Takes the position of an instrument for unreliable until the venue reports it again. -/
def disablePosition (k : Ledger) (key : Instrument) : Ledger :=
  { k with positions := k.positions.insert key (k.positionOrFlat key).disable }

/-- One balance as a venue reports it. -/
def applyMoneyItem (exchange : String) (k : Ledger) (item : MoneyItem) : Ledger :=
  { k with
    money := k.money.insert (exchange, item.symbol)
      { k.moneyOrZero exchange item.symbol with balance := item.balance, rights := item.rights } }

/-- The answer to a balance query; false when it carries an error. Follows
`Keeper::apply_money_update`. -/
def applyMoney (k : Ledger) (exchange : String) (r : MoneyResponse) : Bool × Ledger :=
  if r.status.isOk then (true, r.items.foldl (applyMoneyItem exchange) k) else (false, k)

/-- One order as a venue reports it: a working order is added or overwrites the one with its id, and
a finished one is forgotten. Follows the loop of `Keeper::apply_order_updates`. -/
def track (orders : List Order) (o : Order) : List Order :=
  match orders with
  | [] => if o.status.isOpen then [o] else []
  | c :: rest =>
    if c.orderId = o.orderId then
      if o.status.isOpen then o :: rest else rest
    else c :: track rest o

/-- The answer to an order query; false when it carries an error. Follows
`Keeper::apply_order_updates`. -/
def applyOrders (k : Ledger) (exchange : String) (r : OrdersResponse) : Bool × Ledger :=
  if r.status.isOk then
    (true, { k with orders := (r.orders.map (·.order exchange)).foldl track k.orders })
  else (false, k)

/-- A position with the venue's fields of both sides. -/
def reported (p : Position) (d : PositionDetail) : Position :=
  { p with
    valid := true
    long := p.long.applyVenue d.long
    short := p.short.applyVenue d.short }

/-- The answer to a position query; false when it carries an error. The first detail counts. Without
one nothing is held: a known position is emptied, and none is created. Follows
`Keeper::apply_position_update`. -/
def applyPositions (k : Ledger) (exchange : String) (r : PositionResponse) : Bool × Ledger :=
  if r.status.isOk then
    let key : Instrument := ⟨exchange, r.symbol, r.contract⟩
    match r.positions.head? with
    | none => (true, { k with positions := k.positions.modify key fun p => .flat p.key })
    | some d =>
      (true, { k with positions := k.positions.insert key (reported (k.positionOrFlat key) d) })
  else (false, k)

/-- The floating profit of the quoted instrument's position, recomputed by the venue's trader.
Follows `Keeper::on_tick`. -/
def reprice (k : Ledger) (tick : Tick) (trader : Option Trader) : Ledger :=
  match trader with
  | some t => { k with positions := k.positions.modify tick.key fun p => t.floatProfit p tick.last }
  | none => k

/-- The working order with an id. Follows `Keeper::order_by_id`. -/
def order? (k : Ledger) (orderId : String) : Option Order :=
  k.orders.find? fun o => o.orderId = orderId

/-- The working orders of an instrument. Follows `Keeper::orders_by_instrument`. -/
def ordersOf (k : Ledger) (key : Instrument) : List Order :=
  k.orders.filter fun o => o.key = key

end Ledger

end TradeDesk
