import TradeDesk.Dispatch.Answers
import TradeDesk.Proofs.Account.Upkeep
import TradeDesk.Proofs.Desk.Turn

/-!
# What an answer settles and asks for

An answer of a venue does two things, which have nothing to do with each other: it settles something
in the ledger, and it makes the desk ask the venue for more. An answer that carries an error settles
nothing, and one that does not decode, or whose venue has no trader, does neither. The last section
says for every envelope what the answers' handler makes of a desk.
-/

namespace TradeDesk

/-! ### Requests in a row -/

namespace Desk

/-- The desk with another ledger. -/
def withLedger (d : Desk) (k : Ledger) : Desk := { d with ledger := k }

/-- The desk once a trader has published a request under the next serial. -/
def post (d : Desk) (t : Trader) (r : Request) : Desk :=
  { d with
    lastSerial := nextSerial d.lastSerial
    outbox := d.outbox.publish (t.envelope (nextSerial d.lastSerial) r) }

/-- Sends requests to the trader of an exchange, one after another. -/
def requestAll (d : Desk) (exchange : String) (rs : List Request) : Desk :=
  rs.foldl (fun d r => (d.request exchange r).2) d

variable {d : Desk} {exchange : String}

/-- Nothing is asked of a venue without a trader. -/
theorem request_of_none {exchange : String} (ht : d.traders.get? exchange = none)
    (r : Request) : d.request exchange r = (none, d) := by
  unfold request
  rw [ht]

/-- A request leaves traders and accounts alone. -/
theorem request_frame (d : Desk) (exchange : String) (r : Request) :
    (d.request exchange r).2.traders = d.traders ∧
      (d.request exchange r).2.ledger = d.ledger := by
  unfold request
  split
  · exact ⟨rfl, rfl⟩
  · exact ⟨rfl, rfl⟩

/-- However much is to be asked of a venue without a trader, nothing is. -/
theorem requestAll_of_none (ht : d.traders.get? exchange = none) (rs : List Request) :
    d.requestAll exchange rs = d := by
  induction rs with
  | nil => rfl
  | cons r rest ih =>
    show ((d.request exchange r).2).requestAll exchange rest = d
    rw [request_of_none ht]
    exact ih

/-- The trader of a venue publishes every request. -/
theorem requestAll_of_some {t : Trader} (ht : d.traders.get? exchange = some t)
    (rs : List Request) : d.requestAll exchange rs = rs.foldl (fun d r => d.post t r) d := by
  induction rs generalizing d with
  | nil => rfl
  | cons r rest ih =>
    have hr : (d.request exchange r).2 = d.post t r := by simp only [request, ht, post]
    show ((d.request exchange r).2).requestAll exchange rest = _
    rw [hr]
    exact ih ht

/-- Requests change nothing but what was published and the serial. -/
theorem requestAll_eq (d : Desk) (exchange : String) (rs : List Request) :
    ∃ outbox serial,
      d.requestAll exchange rs = { d with outbox := outbox, lastSerial := serial } := by
  cases ht : d.traders.get? exchange with
  | none => exact ⟨d.outbox, d.lastSerial, requestAll_of_none ht rs⟩
  | some t =>
    rw [requestAll_of_some ht]
    clear ht
    induction rs generalizing d with
    | nil => exact ⟨d.outbox, d.lastSerial, rfl⟩
    | cons r rest ih => exact ih (d.post t r)

/-- What is asked does not depend on the ledger. -/
theorem requestAll_withLedger (d : Desk) (k : Ledger) (exchange : String) (rs : List Request) :
    (d.withLedger k).requestAll exchange rs = (d.requestAll exchange rs).withLedger k := by
  cases ht : d.traders.get? exchange with
  | none =>
    have htk : (d.withLedger k).traders.get? exchange = none := ht
    rw [requestAll_of_none ht, requestAll_of_none htk]
  | some t =>
    have htk : (d.withLedger k).traders.get? exchange = some t := ht
    rw [requestAll_of_some ht, requestAll_of_some htk]
    clear ht htk
    induction rs generalizing d with
    | nil => rfl
    | cons r rest ih => exact ih (d.post t r)

end Desk

/-! ### Answers -/

/-- The ledger after the outcome of the request of a serial: if that succeeded, it is no longer
pending. -/
def Ledger.confirm (k : Ledger) (status : ApiStatus) (serial : UInt32) : Ledger :=
  if status.isOk then { k with pending := (k.pending.remove serial).2 } else k

/-- What a venue can answer. -/
inductive Answer where
  | report (r : Ledger.Report)
  | placed (r : PlaceResponse)
  | canceled (r : CancelResponse)
  | transferred (r : TransferResponse)

namespace Answer

def status : Answer → ApiStatus
  | report (.money r) => r.status
  | report (.orders r) => r.status
  | report (.positions r) => r.status
  | placed r => r.status
  | canceled r => r.status
  | transferred r => r.status

/-- The ledger after the answer of an exchange to the request of a serial. A report is taken, and an
order or a cancellation is confirmed; a transfer was never pending. -/
def settle (k : Ledger) (exchange : String) (serial : UInt32) : Answer → Ledger
  | report r => (k.apply exchange r).2
  | placed r => k.confirm r.status serial
  | canceled r => k.confirm r.status serial
  | transferred _ => k

/-- What the desk asks the exchange for once it has the answer. -/
def requests (exchange : String) : Answer → List Request
  | report _ => []
  | placed r =>
    let key : Instrument := ⟨exchange, r.symbol, r.contract⟩
    .account :: .position key :: if r.status.isOk then [.order key r.orderId] else []
  | canceled r =>
    if r.status.isOk then
      (r.success ++ r.errors).map fun id => .order ⟨exchange, r.symbol, r.contract⟩ id
    else []
  | transferred _ => [.account]

/-- An answer that carries an error settles nothing. -/
theorem settle_of_error {a : Answer} (h : a.status.isOk = false) (k : Ledger) (exchange : String)
    (serial : UInt32) : a.settle k exchange serial = k := by
  cases a with
  | report r =>
    cases r with
    | money r => simp [settle, Ledger.apply, Ledger.applyMoney, show r.status.isOk = false from h]
    | orders r => simp [settle, Ledger.apply, Ledger.applyOrders, show r.status.isOk = false from h]
    | positions r =>
      simp [settle, Ledger.apply, Ledger.applyPositions, show r.status.isOk = false from h]
  | placed r => simp [settle, Ledger.confirm, show r.status.isOk = false from h]
  | canceled r => simp [settle, Ledger.confirm, show r.status.isOk = false from h]
  | transferred r => rfl

/-- Settling an answer keeps the ledger in order. -/
theorem kept_settle {k : Ledger} (h : k.Kept) (exchange : String) (serial : UInt32) (a : Answer) :
    (a.settle k exchange serial).Kept := by
  have hconfirm : ∀ status, (k.confirm status serial).Kept := by
    intro status
    unfold Ledger.confirm
    split
    · exact h.after (.setPending (k.pending.remove serial).2)
    · exact h
  cases a with
  | report r => exact h.apply exchange r
  | placed r => exact hconfirm r.status
  | canceled r => exact hconfirm r.status
  | transferred _ => exact h

/-- All that is asked for in return are queries. -/
theorem kind_of_mem_requests {a : Answer} {exchange : String} {r : Request}
    (h : r ∈ a.requests exchange) :
    r.kind = .queryMoney ∨ r.kind = .queryPosition ∨ r.kind = .queryOrders := by
  cases a with
  | report _ => cases h
  | placed p =>
    simp only [requests, List.mem_cons] at h
    obtain rfl | rfl | h := h
    · exact Or.inl rfl
    · exact Or.inr (Or.inl rfl)
    · split at h
      · rw [List.mem_singleton.mp h]
        exact Or.inr (Or.inr rfl)
      · cases h
  | canceled c =>
    by_cases hok : c.status.isOk
    · rw [requests, if_pos hok] at h
      obtain ⟨id, -, rfl⟩ := List.mem_map.mp h
      exact Or.inr (Or.inr rfl)
    · rw [requests, if_neg hok] at h
      cases h
  | transferred _ =>
    rw [List.mem_singleton.mp h]
    exact Or.inl rfl

end Answer

/-- Whether an envelope is an answer of a venue. -/
def Envelope.isAnswer (e : Envelope) : Bool := e.kind?.any Answers.isAnswer

/-- The answer that an envelope brings, if it is one and decodes. -/
def Envelope.answer? (e : Envelope) : Option Answer :=
  match e.kind? with
  | some .moneyAnswer =>
    (e.decode : Except DeskError MoneyResponse).toOption.map fun r => .report (.money r)
  | some .positionAnswer =>
    (e.decode : Except DeskError PositionResponse).toOption.map fun r => .report (.positions r)
  | some .ordersAnswer =>
    (e.decode : Except DeskError OrdersResponse).toOption.map fun r => .report (.orders r)
  | some .placeAnswer => (e.decode : Except DeskError PlaceResponse).toOption.map .placed
  | some .cancelAnswer => (e.decode : Except DeskError CancelResponse).toOption.map .canceled
  | some .transferAnswer => (e.decode : Except DeskError TransferResponse).toOption.map .transferred
  | _ => none

namespace Envelope

/-- Only answers bring answers. -/
theorem answer?_of_not_isAnswer {e : Envelope} (h : e.isAnswer = false) : e.answer? = none := by
  unfold isAnswer at h
  unfold answer?
  cases hk : e.kind? with
  | none => rfl
  | some kind =>
    rw [hk] at h
    cases kind with
    | moneyAnswer | positionAnswer | ordersAnswer | placeAnswer | cancelAnswer | transferAnswer =>
      cases h
    | _ => rfl

/-- The answer about the position of an instrument is a report of positions that names it and carries
no error. -/
theorem positionAnswer?_eq (e : Envelope) (key : Instrument) :
    e.positionAnswer? key =
      match e.answer? with
      | some (.report (.positions r)) =>
        if r.status.isOk ∧ ⟨e.source, r.symbol, r.contract⟩ = key then some r else none
      | _ => none := by
  unfold answer?
  by_cases hp : e.kind? = some .positionAnswer
  · rw [positionAnswer?, if_pos hp, hp]
    cases (e.decode : Except DeskError PositionResponse) with
    | ok r => rfl
    | error err => rfl
  · rw [positionAnswer?_of_ne hp]
    cases hk : e.kind? with
    | none => rfl
    | some kind =>
      cases kind with
      | positionAnswer => exact absurd hk hp
      | moneyAnswer => cases (e.decode : Except DeskError MoneyResponse) <;> rfl
      | ordersAnswer => cases (e.decode : Except DeskError OrdersResponse) <;> rfl
      | placeAnswer => cases (e.decode : Except DeskError PlaceResponse) <;> rfl
      | cancelAnswer => cases (e.decode : Except DeskError CancelResponse) <;> rfl
      | transferAnswer => cases (e.decode : Except DeskError TransferResponse) <;> rfl
      | _ => rfl

end Envelope

/-! ### The desk after an envelope -/

namespace Desk

/-- The answer that an envelope brings to a desk: only of venues that have traders. -/
def answer? (d : Desk) (e : Envelope) : Option Answer :=
  if d.traders.contains e.source then e.answer? else none

/-- The desk after the answer of an exchange to the request of a serial. -/
def settle (d : Desk) (exchange : String) (serial : UInt32) (a : Answer) : Desk :=
  (d.withLedger (a.settle d.ledger exchange serial)).requestAll exchange (a.requests exchange)

/-- An answer changes the ledger as it settles it, and makes requests. -/
theorem settle_eq (d : Desk) (exchange : String) (serial : UInt32) (a : Answer) :
    ∃ outbox lastSerial, d.settle exchange serial a =
      { d with
        ledger := a.settle d.ledger exchange serial
        outbox := outbox
        lastSerial := lastSerial } :=
  requestAll_eq (d.withLedger (a.settle d.ledger exchange serial)) exchange (a.requests exchange)

end Desk

namespace Answers

variable {d : Desk} {e : Envelope}

private theorem onPlaced_eq (d : Desk) (e : Envelope) (r : PlaceResponse) :
    onPlaced d e r = d.settle e.source e.reqSerial (.placed r) := by
  let key : Instrument := ⟨e.source, r.symbol, r.contract⟩
  let asked : Desk := d.requestAll e.source [.account, .position key]
  have hledger : asked.ledger = d.ledger :=
    (Desk.request_frame _ _ _).2.trans (Desk.request_frame _ _ _).2
  by_cases hok : r.status.isOk
  · -- the confirmation comes between the requests, and they do not look at it
    let confirmed : Ledger := { d.ledger with pending := (d.ledger.pending.remove e.reqSerial).2 }
    calc onPlaced d e r
        = (asked.confirm e.reqSerial).2.requestAll e.source [.order key r.orderId] := by
          unfold onPlaced
          rw [if_pos hok]
          rfl
      _ = (asked.withLedger confirmed).requestAll e.source [.order key r.orderId] := by
          unfold Desk.confirm
          rw [hledger]
          rfl
      _ = ((d.withLedger confirmed).requestAll e.source
            [.account, .position key]).requestAll e.source [.order key r.orderId] := by
          rw [Desk.requestAll_withLedger d confirmed]
      _ = d.settle e.source e.reqSerial (.placed r) := by
          simp only [Desk.settle, Answer.settle, Ledger.confirm, Answer.requests, if_pos hok]
          rfl
  · calc onPlaced d e r
        = asked := by
          unfold onPlaced
          rw [if_neg hok]
          rfl
      _ = d.settle e.source e.reqSerial (.placed r) := by
          simp only [Desk.settle, Answer.settle, Ledger.confirm, Answer.requests, if_neg hok]
          rfl

private theorem onCanceled_eq (d : Desk) (e : Envelope) (r : CancelResponse) :
    onCanceled d e r = d.settle e.source e.reqSerial (.canceled r) := by
  by_cases hok : r.status.isOk
  · simp only [onCanceled, Desk.settle, Answer.settle, Ledger.confirm, Answer.requests, if_pos hok]
    rw [Desk.requestAll, List.foldl_map]
    rfl
  · simp only [onCanceled, Desk.settle, Answer.settle, Ledger.confirm, Answer.requests, if_neg hok]
    rfl

private theorem whenDecoded_eq {α : Type} [Json.Codec α] {f : α → Desk} {g : α → Answer}
    (h : ∀ r, f r = d.settle e.source e.reqSerial (g r)) :
    whenDecoded d e f =
      match (e.decode : Except DeskError α).toOption.map g with
      | some a => d.settle e.source e.reqSerial a
      | none => d := by
  unfold whenDecoded
  cases (e.decode : Except DeskError α) with
  | ok r => exact h r
  | error err => rfl

/-- An answer of a venue that has a trader settles the ledger and asks for more; one that does not
decode does nothing. -/
theorem onAnswer_eq (d : Desk) {kind : MessageKind} (hk : e.kind? = some kind)
    (ha : isAnswer kind = true) :
    onAnswer d e kind =
      match e.answer? with
      | some a => d.settle e.source e.reqSerial a
      | none => d := by
  unfold Envelope.answer?
  rw [hk]
  cases kind with
  | moneyAnswer => exact whenDecoded_eq fun (_ : MoneyResponse) ↦ rfl
  | positionAnswer => exact whenDecoded_eq fun (_ : PositionResponse) ↦ rfl
  | ordersAnswer => exact whenDecoded_eq fun (_ : OrdersResponse) ↦ rfl
  | placeAnswer => exact whenDecoded_eq (onPlaced_eq d e)
  | cancelAnswer => exact whenDecoded_eq (onCanceled_eq d e)
  | transferAnswer => exact whenDecoded_eq fun (_ : TransferResponse) ↦ rfl
  | tick | candle | depth | tradePrint | index | queryMoney | queryPosition | placeOrder |
    queryOrders | cancelOrders | transferMoney => cases ha

/-- The answers' handler claims every answer. -/
theorem handle_of_isAnswer (d : Desk) (he : e.isAnswer = true) :
    handle d e = (true,
      match d.answer? e with
      | some a => d.settle e.source e.reqSerial a
      | none => d) := by
  obtain ⟨kind, hk, ha⟩ := (Option.any_eq_true _ _).mp he
  have hhandle : handle d e =
      if d.traders.contains e.source then (true, onAnswer d e kind) else (true, d) := by
    unfold handle
    rw [hk]
    cases kind with
    | moneyAnswer | positionAnswer | ordersAnswer | placeAnswer | cancelAnswer | transferAnswer =>
      rfl
    | tick | candle | depth | tradePrint | index | queryMoney | queryPosition | placeOrder |
      queryOrders | cancelOrders | transferMoney => cases ha
  rw [hhandle, Desk.answer?]
  split
  · rw [onAnswer_eq d hk ha]
  · rfl

/-- A tick reprices its position and is not claimed. -/
theorem handle_of_tick (d : Desk) {tick : Tick} (h : e.tick? = some tick) :
    handle d e = (false, d.reprice tick) := by
  obtain ⟨hk, hd⟩ := Envelope.tick?_eq_some.mp h
  simp only [handle, hk, hd]

/-- What is neither an answer nor a tick is left to others, and so is a tick that does not decode
but for its being claimed. -/
theorem snd_handle_of_not_isAnswer (d : Desk) (he : e.isAnswer = false) (ht : e.tick? = none) :
    (handle d e).2 = d := by
  unfold handle
  split
  · rfl
  · next hk =>
    split
    · next tick hd =>
      rw [Envelope.tick?_eq_some.mpr ⟨hk, hd⟩] at ht
      cases ht
    · rfl
  · next kind _ hk =>
    have ha : isAnswer kind = false := by
      rw [Envelope.isAnswer, hk] at he
      exact he
    simp [ha]

end Answers

end TradeDesk
