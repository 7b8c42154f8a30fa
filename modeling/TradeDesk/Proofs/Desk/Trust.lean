import TradeDesk.Dispatch.Feed
import TradeDesk.Proofs.Desk.Settlement

/-!
# Trust in cached positions

A cached position is relied on from an answer of its venue to the next order. What one turn of the
desk does to that trust can be told from the envelopes of the turn alone.
-/

namespace TradeDesk

namespace Ledger

/-- Whether the cached position of an instrument can be relied on, if there is one. -/
def trust? (k : Ledger) (key : Instrument) : Option Bool :=
  (k.positions.get? key).map (·.valid)

/-- Only the position taken for unreliable loses its trust. -/
theorem trust?_disablePosition (k : Ledger) (key key' : Instrument) :
    (k.disablePosition key).trust? key' = if key' = key then some false else k.trust? key' := by
  rw [trust?, disablePosition, Table.get?_insert]
  split
  · rfl
  · rfl

private theorem valid_floatProfit (t : Trader) (p : Position) (last : Float) :
    (t.floatProfit p last).valid = p.valid := by
  unfold Trader.floatProfit
  split
  · rfl
  · split
    · rfl
    · rfl

/-- Repricing leaves trust alone. -/
theorem trust?_reprice (k : Ledger) (tick : Tick) (trader : Option Trader) (key : Instrument) :
    (k.reprice tick trader).trust? key = k.trust? key := by
  cases trader with
  | none => rfl
  | some t =>
    rw [trust?, reprice, Table.get?_modify]
    split
    · next h =>
      rw [h, trust?, Option.map_map]
      congr 1
      funext p
      exact valid_floatProfit t p tick.last
    · rfl

/-- A report of a position makes it trusted; one that reports nothing held makes none. -/
theorem trust?_applyPositions (k : Ledger) (exchange : String) (r : PositionResponse)
    (key : Instrument) :
    (k.applyPositions exchange r).2.trust? key =
      if r.status.isOk ∧ ⟨exchange, r.symbol, r.contract⟩ = key then
        if r.positions.isEmpty then (k.trust? key).map fun _ => true else some true
      else k.trust? key := by
  rw [trust?, get?_applyPositions, trust?]
  split
  · cases r.positions with
    | nil =>
      cases k.positions.get? key with
      | none => rfl
      | some p => rfl
    | cons d rest => rfl
  · rfl

/-- Of all answers only a report of positions changes any. -/
theorem positions_settle (k : Ledger) (exchange : String) (serial : UInt32) (a : Answer) :
    (a.settle k exchange serial).positions =
      match a with
      | .report (.positions r) => (k.applyPositions exchange r).2.positions
      | _ => k.positions := by
  have hconfirm : ∀ status, (k.confirm status serial).positions = k.positions := by
    intro status
    unfold confirm
    split
    · rfl
    · rfl
  cases a with
  | report r =>
    cases r with
    | money r =>
      obtain ⟨money, hm⟩ := applyMoney_eq k exchange r
      show (k.applyMoney exchange r).2.positions = _
      rw [hm]
    | orders r =>
      obtain ⟨orders, hr⟩ := applyOrders_eq k exchange r
      show (k.applyOrders exchange r).2.positions = _
      rw [hr]
    | positions r => rfl
  | placed r => exact hconfirm r.status
  | canceled r => exact hconfirm r.status
  | transferred r => rfl

/-- Of all answers only a report of a position makes one trusted. -/
theorem trust?_settle (k : Ledger) (exchange : String) (serial : UInt32) (a : Answer)
    (key : Instrument) :
    (a.settle k exchange serial).trust? key =
      match a with
      | .report (.positions r) =>
        if r.status.isOk ∧ ⟨exchange, r.symbol, r.contract⟩ = key then
          if r.positions.isEmpty then (k.trust? key).map fun _ => true else some true
        else k.trust? key
      | _ => k.trust? key := by
  rw [trust?, positions_settle]
  cases a with
  | report r =>
    cases r with
    | positions r => exact trust?_applyPositions k exchange r key
    | money r => rfl
    | orders r => rfl
  | placed r => rfl
  | canceled r => rfl
  | transferred r => rfl

end Ledger

namespace Desk

/-- Whether the cached position of an instrument can be relied on, if there is one. -/
def trust? (d : Desk) (key : Instrument) : Option Bool := d.ledger.trust? key

/-- A desk whose envelopes are received takes a turn: it publishes what the turn sends, and trusts
the positions of its venues as the turn says. -/
structure Takes (d : Desk) (t : Turn) (d' : Desk) : Prop where
  sent : d'.outbox.sent.toList = d.outbox.sent.toList ++ t.sent
  opened : d'.outbox.closed = false
  traders : d'.traders = d.traders
  served : ∀ key, t.orders key = true → d.traders.contains key.exchange = true
  trust : ∀ key, d'.trust? key =
    if d.traders.contains key.exchange then t.trust key (d.trust? key) else d.trust? key

variable {d d' d'' : Desk}

/-- What was done after the envelope of a turn came in belongs to the turn. -/
theorem Takes.trans {inbound : Option Envelope} {es es' : List Envelope}
    (h : d.Takes ⟨inbound, es⟩ d') (h' : d'.Takes ⟨none, es'⟩ d'') :
    d.Takes ⟨inbound, es ++ es'⟩ d'' := by
  have ho := Turn.orders_append inbound none es es'
  refine ⟨?_, h'.opened, h'.traders.trans h.traders, fun key hk ↦ ?_, fun key ↦ ?_⟩
  · rw [h'.sent, h.sent, List.append_assoc]
  · rw [ho, Bool.or_eq_true] at hk
    cases hk with
    | inl hk => exact h.served key hk
    | inr hk =>
      rw [← h.traders]
      exact h'.served key hk
  · rw [h'.trust, h.trust, h.traders]
    split
    · unfold Turn.trust
      rw [ho]
      cases (⟨none, es'⟩ : Turn).orders key with
      | true =>
        rw [Bool.or_true]
        rfl
      | false =>
        rw [Bool.or_false]
        rfl
    · rfl

/-- Trust changes only by an order or an answer. -/
theorem Takes.trust?_eq {t : Turn} {key : Instrument} (h : d.Takes t d')
    (ho : t.orders key = false) (ha : t.answer? key = none) : d'.trust? key = d.trust? key := by
  rw [h.trust, Turn.trust, ho, ha]
  split
  · rfl
  · rfl

/-! ### Requests -/

/-- Nothing but requests other than orders went out. -/
def Asks (d d' : Desk) : Prop :=
  ∃ es, (⟨none, es⟩ : Turn).Quiet ∧ d.Takes ⟨none, es⟩ d'

/-- A change that publishes nothing and leaves the trust in positions alone is an empty turn. -/
theorem takes_of_eq (ho : d.outbox.closed = false) (hs : d'.outbox = d.outbox)
    (ht : d'.traders = d.traders) (hp : ∀ key, d'.trust? key = d.trust? key) :
    d.Takes ⟨none, []⟩ d' where
  sent := by rw [hs, List.append_nil]
  opened := by
    rw [hs]
    exact ho
  traders := ht
  served _ h := by cases h
  trust key := by
    rw [hp key]
    split
    · rfl
    · rfl

/-- A change that publishes nothing and leaves the trust in positions alone asks for nothing. -/
theorem asks_of_eq (ho : d.outbox.closed = false) (hs : d'.outbox = d.outbox)
    (ht : d'.traders = d.traders) (hp : ∀ key, d'.trust? key = d.trust? key) : d.Asks d' :=
  ⟨[], fun _ ↦ rfl, takes_of_eq ho hs ht hp⟩

/-- A desk that does nothing asks for nothing. -/
theorem asks_refl (ho : d.outbox.closed = false) : d.Asks d := asks_of_eq ho rfl rfl fun _ ↦ rfl

/-- Asking for something leaves the trust in positions alone. -/
theorem Asks.trust?_eq (h : d.Asks d') (key : Instrument) : d'.trust? key = d.trust? key := by
  obtain ⟨es, hes, ht⟩ := h
  exact ht.trust?_eq (hes key) rfl

/-- After asking the envelopes of a desk are still received. -/
theorem Asks.opened (h : d.Asks d') : d'.outbox.closed = false := by
  obtain ⟨es, -, ht⟩ := h
  exact ht.opened

/-- Asking twice is asking. -/
theorem Asks.trans (h : d.Asks d') (h' : d'.Asks d'') : d.Asks d'' := by
  obtain ⟨es, hn, ht⟩ := h
  obtain ⟨es', hn', ht'⟩ := h'
  exact ⟨es ++ es', hn.append hn', ht.trans ht'⟩

/-- A request to a venue that has a trader goes out under the next serial. -/
theorem outbox_request {exchange : String} {t : Trader} (ho : d.outbox.closed = false)
    (ht : d.traders.get? exchange = some t) (r : Request) :
    (d.request exchange r).2.outbox.sent.toList =
        d.outbox.sent.toList ++ [t.envelope (nextSerial d.lastSerial) r] ∧
      (d.request exchange r).2.outbox.closed = false := by
  unfold request
  rw [ht]
  simp only [Outbox.publish, ho]
  exact ⟨Array.toList_push, rfl⟩

/-- A request other than an order. -/
theorem asks_request (ho : d.outbox.closed = false) (exchange : String) {r : Request}
    (hr : r.kind ≠ .placeOrder) : d.Asks (d.request exchange r).2 := by
  obtain ⟨htraders, hledger⟩ := request_frame d exchange r
  cases ht : d.traders.get? exchange with
  | none =>
    rw [request_of_none ht]
    exact asks_of_eq ho rfl rfl fun _ ↦ rfl
  | some t =>
    obtain ⟨hsent, hopened⟩ := outbox_request ho ht r
    have hquiet : (⟨none, [t.envelope (nextSerial d.lastSerial) r]⟩ : Turn).Quiet := by
      intro key
      rw [Turn.orders, List.any_cons, Envelope.concerns_of_ne (t.kind?_envelope _ r) hr]
      rfl
    refine ⟨[t.envelope (nextSerial d.lastSerial) r], hquiet, hsent, hopened, htraders,
      fun key hk ↦ ?_, fun key ↦ ?_⟩
    · rw [hquiet key] at hk
      cases hk
    · rw [trust?, hledger, Turn.trust, hquiet key]
      split
      · rfl
      · rfl

/-- Requests one after another. -/
theorem asks_foldl {α : Type} {f : Desk → α → Desk}
    {items : List α} (hf : ∀ a ∈ items, ∀ d : Desk, d.outbox.closed = false → d.Asks (f d a))
    (ho : d.outbox.closed = false) : d.Asks (items.foldl f d) := by
  induction items generalizing d with
  | nil => exact asks_refl ho
  | cons a rest ih =>
    have h := hf a List.mem_cons_self d ho
    exact h.trans (ih (fun a' ha ↦ hf a' (List.mem_cons_of_mem a ha)) h.opened)

/-- A query of an account is no order. -/
theorem asks_queryAccount (ho : d.outbox.closed = false) (exchange : String) :
    d.Asks (d.queryAccount exchange).2 :=
  asks_request ho exchange fun h ↦ by cases h

/-- A query of a position is no order. -/
theorem asks_queryPosition (ho : d.outbox.closed = false) (key : Instrument) :
    d.Asks (d.queryPosition key).2 :=
  asks_request ho key.exchange fun h ↦ by cases h

/-- A query of an order is no order. -/
theorem asks_queryOrder (ho : d.outbox.closed = false) (key : Instrument) (orderId : String) :
    d.Asks (d.queryOrder key orderId).2 :=
  asks_request ho key.exchange fun h ↦ by cases h

/-- A query of all orders of a status is no order. -/
theorem asks_queryOrdersByStatus (ho : d.outbox.closed = false) (key : Instrument)
    (status : OrderStatus) : d.Asks (d.queryOrdersByStatus key status).2 :=
  asks_request ho key.exchange fun h ↦ by cases h

/-- A transfer is no order. -/
theorem asks_transferMoney (ho : d.outbox.closed = false) (exchange symbol : String)
    (direction : TransferDirection) (amount : Float) :
    d.Asks (d.transferMoney exchange symbol direction amount).2 :=
  asks_request ho exchange fun h ↦ by cases h

/-- Looking at the requests of a strategy that are unconfirmed sends nothing. -/
theorem asks_reviewPending (ho : d.outbox.closed = false) (strategy : String) :
    d.Asks (d.reviewPending strategy).2 :=
  asks_of_eq ho rfl rfl fun _ ↦ rfl

/-- A cancellation is no order. -/
theorem asks_cancelOrders (ho : d.outbox.closed = false) (strategy : String) (c : CancelCommand) :
    d.Asks (d.cancelOrders strategy c).2 := by
  have h : d.Asks (d.request c.key.exchange (.cancel c)).2 :=
    asks_request ho c.key.exchange fun h ↦ by cases h
  unfold cancelOrders
  split
  · next d₁ hd =>
    rw [hd] at h
    exact h
  · next serial d₁ hd =>
    rw [hd] at h
    exact h.trans (asks_of_eq h.opened rfl rfl fun _ ↦ rfl)

/-- An order goes out as its request does. It takes the trust in one position and in no other. -/
theorem placeOrder_frame {t : Trader} {c : OrderCommand}
    (ht : d.traders.get? c.key.exchange = some t) (strategy : String) :
    (d.placeOrder strategy c).2.outbox = (d.request c.key.exchange (.place c)).2.outbox ∧
      (d.placeOrder strategy c).2.traders = d.traders ∧
      ∀ key, (d.placeOrder strategy c).2.trust? key =
        if key = c.key then some false else d.trust? key := by
  unfold placeOrder request
  rw [ht]
  exact ⟨rfl, rfl, fun key ↦ Ledger.trust?_disablePosition _ c.key key⟩

/-- An order takes the trust in the position of its instrument. -/
theorem takes_placeOrder (ho : d.outbox.closed = false) (strategy : String) (c : OrderCommand) :
    ∃ es, (∀ e ∈ es, ∃ (t : Trader) (n : UInt32), e = t.envelope n (.place c)) ∧
      d.Takes ⟨none, es⟩ (d.placeOrder strategy c).2 := by
  cases ht : d.traders.get? c.key.exchange with
  | none =>
    have hd : (d.placeOrder strategy c).2 = d := by
      unfold placeOrder
      rw [request_of_none ht]
    refine ⟨[], fun e he ↦ ?_, ?_⟩
    · cases he
    · rw [hd]
      exact takes_of_eq ho rfl rfl fun _ ↦ rfl
  | some t =>
    obtain ⟨hsent, hopened⟩ := outbox_request ho ht (.place c)
    obtain ⟨houtbox, htraders, htrust⟩ := placeOrder_frame ht strategy
    have horders : ∀ key, (⟨none, [t.envelope (nextSerial d.lastSerial) (.place c)]⟩ : Turn).orders
        key = true ↔ key = c.key := by
      intro key
      rw [Turn.orders, List.any_cons, List.any_nil, Bool.or_false, Trader.concerns_placeOrder]
      constructor
      · rintro ⟨c', hc, hk⟩
        cases hc
        exact hk.symm
      · exact fun hk ↦ ⟨c, rfl, hk.symm⟩
    have hserved : d.traders.contains c.key.exchange = true := by
      rw [Table.contains, ht]
      rfl
    refine ⟨[t.envelope (nextSerial d.lastSerial) (.place c)], fun e he ↦ ?_, ?_, ?_, htraders,
      fun key hk ↦ ?_, fun key ↦ ?_⟩
    · exact ⟨t, nextSerial d.lastSerial, List.mem_singleton.mp he⟩
    · rw [houtbox]
      exact hsent
    · rw [houtbox]
      exact hopened
    · rw [(horders key).mp hk]
      exact hserved
    · rw [htrust key, Turn.trust]
      by_cases hk : key = c.key
      · rw [if_pos hk, if_pos (by rw [hk]; exact hserved), if_pos ((horders key).mpr hk)]
      · rw [if_neg hk, if_neg fun h ↦ hk ((horders key).mp h)]
        split
        · rfl
        · rfl

/-! ### Envelopes from venues -/

private theorem Asks.takes_of_no_answer {e : Envelope} (h : d.Asks d')
    (he : ∀ key, e.positionAnswer? key = none) :
    ∃ es, (⟨some e, es⟩ : Turn).Quiet ∧ d.Takes ⟨some e, es⟩ d' := by
  obtain ⟨es, hes, ht⟩ := h
  refine ⟨es, hes, ht.sent, ht.opened, ht.traders, ht.served, fun key ↦ ?_⟩
  have hturn : ∀ old, (⟨some e, es⟩ : Turn).trust key old = (⟨none, es⟩ : Turn).trust key old := by
    intro old
    have ha : (⟨some e, es⟩ : Turn).answer? key = none := he key
    rw [Turn.trust, ha]
    rfl
  rw [hturn]
  exact ht.trust key

/-- An answer from a venue that has a trader settles the trust in the position that it reports, and
in no other. -/
theorem takes_withLedger {e : Envelope} {a : Answer} (ho : d.outbox.closed = false)
    (hx : d.traders.contains e.source = true) (ha : e.answer? = some a) :
    d.Takes ⟨some e, []⟩ (d.withLedger (a.settle d.ledger e.source e.reqSerial)) := by
  refine ⟨(List.append_nil _).symm, ho, rfl, fun key hk ↦ (by cases hk), fun key ↦ ?_⟩
  have hanswer : (⟨some e, []⟩ : Turn).answer? key = e.positionAnswer? key := rfl
  show (a.settle d.ledger e.source e.reqSerial).trust? key = _
  rw [Turn.trust, hanswer, Envelope.positionAnswer?_eq, ha, Ledger.trust?_settle]
  cases a with
  | report r =>
    cases r with
    | positions r =>
      by_cases hr : r.status.isOk ∧ ⟨e.source, r.symbol, r.contract⟩ = key
      · have hkx : d.traders.contains key.exchange := by
          rw [← hr.2]
          exact hx
        simp only [if_pos hr, if_pos hkx]
        rfl
      · simp only [if_neg hr]
        split
        · rfl
        · rfl
    | money r => exact (ite_self _).symm
    | orders r => exact (ite_self _).symm
  | placed r => exact (ite_self _).symm
  | canceled r => exact (ite_self _).symm
  | transferred r => exact (ite_self _).symm

/-- What an answer makes a desk ask for are no orders. -/
theorem asks_requests (ho : d.outbox.closed = false) (exchange : String) (a : Answer) :
    d.Asks (d.requestAll exchange (a.requests exchange)) := by
  refine asks_foldl (fun r hr d' ho' ↦ asks_request ho' exchange fun hk ↦ ?_) ho
  have hkind := a.kind_of_mem_requests hr
  rw [hk] at hkind
  simp at hkind

end Desk

namespace Answers

variable {d : Desk}

/-- An envelope that the answers' handler is given makes a turn without orders. -/
theorem takes_handle (ho : d.outbox.closed = false) (e : Envelope) :
    ∃ es, (⟨some e, es⟩ : Turn).Quiet ∧ d.Takes ⟨some e, es⟩ (handle d e).2 := by
  by_cases he : e.isAnswer
  · rw [handle_of_isAnswer d he]
    by_cases hx : d.traders.contains e.source
    · have hanswer : d.answer? e = e.answer? := if_pos hx
      rw [hanswer]
      cases ha : e.answer? with
      | some a =>
        have hsettled := Desk.takes_withLedger ho hx ha
        obtain ⟨es, hes, hasked⟩ := Desk.asks_requests hsettled.opened e.source a
        exact ⟨es, hes, hsettled.trans hasked⟩
      | none =>
        refine (Desk.asks_refl ho).takes_of_no_answer fun key ↦ ?_
        rw [Envelope.positionAnswer?_eq, ha]
    · have hnone : d.answer? e = none := if_neg hx
      rw [hnone]
      refine ⟨[], fun _ ↦ rfl, (List.append_nil _).symm, ho, rfl, fun key hk ↦ (by cases hk),
        fun key ↦ ?_⟩
      show d.trust? key = _
      split
      · next hkey =>
        have hanswer : (⟨some e, []⟩ : Turn).answer? key = none := by
          apply Envelope.positionAnswer?_of_source_ne
          intro hs
          rw [hs] at hx
          exact hx hkey
        rw [Turn.trust, hanswer]
        rfl
      · rfl
  · have hno : ∀ key, e.positionAnswer? key = none := by
      intro key
      rw [Envelope.positionAnswer?_eq,
        Envelope.answer?_of_not_isAnswer (Bool.eq_false_iff.mpr he)]
    cases ht : e.tick? with
    | none =>
      rw [snd_handle_of_not_isAnswer d (Bool.eq_false_iff.mpr he) ht]
      exact (Desk.asks_refl ho).takes_of_no_answer hno
    | some tick =>
      rw [handle_of_tick d ht]
      have hreprice : d.Asks (d.reprice tick) :=
        Desk.asks_of_eq ho rfl rfl fun key ↦ Ledger.trust?_reprice _ _ _ key
      exact hreprice.takes_of_no_answer hno

end Answers

/-- Market data changes nothing but bars and quotes. -/
theorem Feed.handle_eq (f : Feed) (d : Desk) (e : Envelope) :
    ∃ bars quotes, (f.handle d e).2.2 = { d with bars := bars, quotes := quotes } := by
  unfold handle
  split
  · split
    · exact ⟨_, _, rfl⟩
    · exact ⟨_, _, rfl⟩
  · split
    · exact ⟨_, _, rfl⟩
    · exact ⟨_, _, rfl⟩
  · exact ⟨_, _, rfl⟩
  · split
    · exact ⟨_, _, rfl⟩
    · exact ⟨_, _, rfl⟩
  · split
    · exact ⟨_, _, rfl⟩
    · exact ⟨_, _, rfl⟩
  · exact ⟨_, _, rfl⟩

/-- Market data leaves the accounts alone. -/
theorem Feed.asks_handle {d : Desk} (ho : d.outbox.closed = false) (f : Feed) (e : Envelope) :
    d.Asks (f.handle d e).2.2 := by
  obtain ⟨bars, quotes, hd⟩ := f.handle_eq d e
  rw [hd]
  exact Desk.asks_of_eq ho rfl rfl fun _ ↦ rfl

/-! ### Turns one after another -/

namespace Desk

variable {d d' : Desk}

/-- The envelopes that were published between two states of a desk. -/
def published (d d' : Desk) : List Envelope :=
  d'.outbox.sent.toList.drop d.outbox.sent.size

/-- What a turn sends is what was published. -/
theorem Takes.published_eq {t : Turn} (h : d.Takes t d') : d.published d' = t.sent := by
  rw [published, h.sent, ← Array.length_toList, List.drop_left]

/-- The turns so far, newest first, tell which positions a desk trusts. -/
structure Told (d : Desk) (ts : List Turn) : Prop where
  opened : d.outbox.closed = false
  served : ∀ t ∈ ts, ∀ key, t.orders key = true → d.traders.contains key.exchange = true
  trust : ∀ key, d.trust? key =
    if d.traders.contains key.exchange then trustAfter key ts else none

/-- A new desk trusts no position. -/
theorem told_ofTraders (traders : List Trader) (bars : Bars) (maxChecks : UInt32) :
    (ofTraders traders bars maxChecks).Told [] where
  opened := rfl
  served t h := by cases h
  trust key := by
    split
    · rfl
    · rfl

/-- One more turn tells one more time. -/
theorem Told.cons {ts : List Turn} {t : Turn} (h : d.Told ts) (ht : d.Takes t d') :
    d'.Told (t :: ts) where
  opened := ht.opened
  served t' hm key hk := by
    rw [ht.traders]
    cases List.mem_cons.mp hm with
    | inl he =>
      rw [he] at hk
      exact ht.served key hk
    | inr he => exact h.served t' he key hk
  trust key := by
    rw [ht.trust, ht.traders, h.trust]
    split
    · rfl
    · rfl

end Desk

end TradeDesk
