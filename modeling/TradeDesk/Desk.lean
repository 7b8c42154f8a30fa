import TradeDesk.Account.Ledger
import TradeDesk.Market.Bars
import TradeDesk.Market.Quotes

/-!
# The desk

Everything that handlers and strategies read and drive: accounts, bars, quotes, and one trader for
each venue. A request takes the next serial and goes out as one envelope; for a venue without a
trader nothing happens.

The traders are those of `Account.Trader`: every venue is served by an adapter that publishes
envelopes, which is the only adapter there is.

Spec: `SPEC_FULL.md` §5 and §C.5. Follows `Context` of `engine::context`.
-/

namespace TradeDesk

/-- The envelopes that were published, as long as somebody receives them. -/
structure Outbox where
  sent : Array Envelope := #[]
  closed : Bool := false

namespace Outbox

/-- Publishes an envelope; it is lost when nobody receives. -/
def publish (o : Outbox) (e : Envelope) : Outbox :=
  if o.closed then o else { o with sent := o.sent.push e }

end Outbox

/-- The state that handlers and strategies share, with the adapter of every venue it trades on.
Follows `Context`. -/
structure Desk where
  ledger : Ledger := .empty
  bars : Bars
  quotes : Quotes := {}
  traders : Table String Trader
  outbox : Outbox := {}
  /-- The serial of the last request; zero before the first. -/
  lastSerial : UInt32 := 0
  /-- How often a strategy looks at an unconfirmed request before it is given up. -/
  maxChecks : UInt32

namespace Desk

/-- A desk with these traders; of two for one exchange the later counts. -/
def ofTraders (traders : List Trader) (bars : Bars) (maxChecks : UInt32) : Desk :=
  { bars := bars, traders := .ofList (traders.map fun t => (t.exchange, t)), maxChecks := maxChecks }

/-- The serial after `serial`. Zero is left out: it marks messages that nobody asked for. Follows
`Context::next_serial`. -/
def nextSerial (serial : UInt32) : UInt32 := if serial + 1 = 0 then 1 else serial + 1

/-- Sends a request to the trader of an exchange. The answer is its serial. -/
def request (d : Desk) (exchange : String) (r : Request) : Option UInt32 × Desk :=
  match d.traders.get? exchange with
  | none => (none, d)
  | some t =>
    let serial := nextSerial d.lastSerial
    (some serial,
      { d with lastSerial := serial, outbox := d.outbox.publish (t.envelope serial r) })

/-- Notes an unconfirmed request of a strategy. -/
def expect (d : Desk) (strategy : String) (serial : UInt32) (kind : MessageKind) (data : String) :
    Desk :=
  { d with
    ledger := { d.ledger with pending := (d.ledger.pending.add strategy serial kind data).2 } }

/-- Places an order for a strategy. It stays unconfirmed until the venue answers, and the
position of its instrument is not to be relied on until the venue reports it. Follows
`Context::place_order`. -/
def placeOrder (d : Desk) (strategy : String) (c : OrderCommand) : Option UInt32 × Desk :=
  match d.request c.key.exchange (.place c) with
  | (none, d) => (none, d)
  | (some serial, d) =>
    let d := d.expect strategy serial .placeOrder c.key.label
    (some serial, { d with ledger := d.ledger.disablePosition c.key })

/-- Cancels orders for a strategy. Follows `Context::cancel_orders`. -/
def cancelOrders (d : Desk) (strategy : String) (c : CancelCommand) : Option UInt32 × Desk :=
  match d.request c.key.exchange (.cancel c) with
  | (none, d) => (none, d)
  | (some serial, d) =>
    (some serial, d.expect strategy serial .cancelOrders (String.intercalate "," c.orderIds))

def queryAccount (d : Desk) (exchange : String) : Option UInt32 × Desk :=
  d.request exchange .account

def queryPosition (d : Desk) (key : Instrument) : Option UInt32 × Desk :=
  d.request key.exchange (.position key)

def queryOrder (d : Desk) (key : Instrument) (orderId : String) : Option UInt32 × Desk :=
  d.request key.exchange (.order key orderId)

def queryOrdersByStatus (d : Desk) (key : Instrument) (status : OrderStatus) :
    Option UInt32 × Desk :=
  d.request key.exchange (.ordersByStatus key status)

def transferMoney (d : Desk) (exchange symbol : String) (direction : TransferDirection)
    (amount : Float) : Option UInt32 × Desk :=
  d.request exchange (.transfer symbol direction amount)

/-- How many contracts `vol` coins are at `price`, as the exchange's trader sizes them. Follows
`Context::contract_amount`. -/
def contractAmount? (d : Desk) (exchange symbol : String) (price vol : Float) : Option Int64 :=
  (d.traders.get? exchange).bind fun t => t.contractAmount? symbol price vol

/-- Lets a strategy look at its unconfirmed requests. The answer is those that stay pending. Follows
`Context::inspect_feedback`. -/
def reviewPending (d : Desk) (strategy : String) : List PendingRequest × Desk :=
  let (left, pending) := d.ledger.pending.review strategy d.maxChecks.toNat
  (left, { d with ledger := { d.ledger with pending := pending } })

/-- Takes the confirmation of a request. -/
def confirm (d : Desk) (serial : UInt32) : Option PendingRequest × Desk :=
  let (entry, pending) := d.ledger.pending.remove serial
  (entry, { d with ledger := { d.ledger with pending := pending } })

/-- Recomputes the floating profit of the quoted position. Follows `Context::apply_tick`. -/
def reprice (d : Desk) (tick : Tick) : Desk :=
  { d with ledger := d.ledger.reprice tick (d.traders.get? tick.key.exchange) }

end Desk

end TradeDesk
