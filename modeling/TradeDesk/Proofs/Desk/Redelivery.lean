import TradeDesk.Mavg.Strategy
import TradeDesk.Proofs.Account.Pending
import TradeDesk.Proofs.Account.Repetition
import TradeDesk.Proofs.Desk.Settlement
import TradeDesk.Proofs.Dispatch.Ticks
import TradeDesk.Proofs.Market.Repetition

/-!
# Envelopes that are delivered twice

A message may be delivered more than once. Except for a tick, the second delivery leaves a desk with
the accounts, quotes and bars that it had after the first; it is counted again, and the desk asks
again for what the first made it ask.
-/

namespace TradeDesk

/-! ### Desks that can come about -/

/-- Whatever arrives, the ledger stays in order. -/
theorem Answers.kept_handle {d : Desk} (h : d.ledger.Kept) (e : Envelope) :
    (handle d e).2.ledger.Kept := by
  by_cases he : e.isAnswer
  · rw [handle_of_isAnswer d he]
    cases d.answer? e with
    | none => exact h
    | some a =>
      obtain ⟨outbox, lastSerial, hd⟩ := d.settle_eq e.source e.reqSerial a
      show (d.settle e.source e.reqSerial a).ledger.Kept
      rw [hd]
      exact a.kept_settle h e.source e.reqSerial
  · cases ht : e.tick? with
    | none =>
      rw [snd_handle_of_not_isAnswer d (Bool.eq_false_iff.mpr he) ht]
      exact h
    | some tick =>
      rw [handle_of_tick d ht]
      exact h.after (.reprice tick (d.traders.get? tick.key.exchange))

namespace Desk

/-- The desks that can come about. One begins with traders alone. Then strategies make requests and
look at what is pending, envelopes arrive, the ledger is changed by hand, and so are market data. -/
inductive Reachable : Desk → Prop where
  | start (traders : List Trader) (bars : Bars) (maxChecks : UInt32) (outbox : Outbox) :
    Reachable { ofTraders traders bars maxChecks with outbox := outbox }
  | act {d : Desk} (h : Reachable d) (a : Act) : Reachable (d.act a)
  | ledger {d : Desk} (h : Reachable d) (event : Ledger.Event) :
    Reachable (d.withLedger (d.ledger.after event))
  | market {d : Desk} (h : Reachable d) (bars : Bars) (quotes : Quotes) :
    Reachable { d with bars := bars, quotes := quotes }

variable {d : Desk}

/-- Every act keeps the ledger in order. -/
theorem kept_act (h : d.ledger.Kept) (a : Act) : (d.act a).ledger.Kept := by
  have hrequest : ∀ exchange r, (d.request exchange r).2.ledger.Kept := by
    intro exchange r
    rw [(request_frame d exchange r).2]
    exact h
  cases a with
  | place strategy c =>
    have hplace := hrequest c.key.exchange (.place c)
    show (d.placeOrder strategy c).2.ledger.Kept
    unfold placeOrder
    split
    · next d₁ hd =>
      rw [hd] at hplace
      exact hplace
    · next serial d₁ hd =>
      rw [hd] at hplace
      exact (hplace.after (.setPending _)).after (.disablePosition c.key)
  | cancel strategy c =>
    have hcancel := hrequest c.key.exchange (.cancel c)
    show (d.cancelOrders strategy c).2.ledger.Kept
    unfold cancelOrders
    split
    · next d₁ hd =>
      rw [hd] at hcancel
      exact hcancel
    · next serial d₁ hd =>
      rw [hd] at hcancel
      exact hcancel.after (.setPending _)
  | queryAccount exchange => exact hrequest _ _
  | queryPosition key => exact hrequest _ _
  | queryOrder key orderId => exact hrequest _ _
  | queryOrdersByStatus key status => exact hrequest _ _
  | transferMoney exchange symbol direction amount => exact hrequest _ _
  | review strategy => exact h.after (.setPending _)
  | deliver e =>
    have hhandle := Answers.kept_handle h e
    cases hd : Answers.handle d e with
    | mk claimed d₁ =>
      rw [hd] at hhandle
      cases claimed with
      | true =>
        rw [act_of_claimed hd]
        exact hhandle
      | false =>
        obtain ⟨bars, quotes, hfeed⟩ := Feed.handle_eq {} d₁ e
        rw [act_of_passed hd {}, hfeed]
        exact hhandle

/-- The ledger of a desk that can come about is in order. -/
theorem Reachable.kept (h : d.Reachable) : d.ledger.Kept := by
  induction h with
  | start traders bars maxChecks outbox => exact Ledger.kept_empty
  | act _ a ih => exact kept_act ih a
  | ledger _ event ih => exact ih.after event
  | market _ bars quotes ih => exact ih

/-! ### The second delivery -/

/-- Two desks that hold the same, but for how many samples came too late, the serials and what was
published. -/
structure Same (d d' : Desk) : Prop where
  ledger : d.ledger.Same d'.ledger
  bars_eq : ∃ dropped, d.bars = { d'.bars with dropped := dropped }
  quotes_eq : d.quotes = d'.quotes
  traders_eq : d.traders = d'.traders
  maxChecks_eq : d.maxChecks = d'.maxChecks

/-- A desk has asked for something and published nothing else. -/
structure Asked (d : Desk) (exchange : String) (rs : List Request) (d' : Desk) : Prop where
  outbox_eq : d'.outbox = (d.requestAll exchange rs).outbox
  lastSerial_eq : d'.lastSerial = (d.requestAll exchange rs).lastSerial

/-- An answer makes a desk ask. -/
theorem asked_settle (d : Desk) (exchange : String) (serial : UInt32) (a : Answer) :
    d.Asked exchange (a.requests exchange) (d.settle exchange serial a) := by
  rw [settle, requestAll_withLedger]
  exact ⟨rfl, rfl⟩

end Desk

/-- An answer that comes again settles nothing more. -/
theorem Answer.same_settle {k : Ledger} (h : k.Kept) (exchange : String) (serial : UInt32)
    (a : Answer) :
    (a.settle (a.settle k exchange serial) exchange serial).Same (a.settle k exchange serial) := by
  have hconfirm : ∀ status, ((k.confirm status serial).confirm status serial).Same
      (k.confirm status serial) := by
    intro status
    unfold Ledger.confirm
    split
    · exact ⟨fun _ ↦ rfl, rfl, fun _ ↦ rfl, k.pending.remove_remove serial⟩
    · exact k.same_refl
  cases a with
  | report r => exact Ledger.same_apply h exchange r
  | placed r => exact hconfirm r.status
  | canceled r => exact hconfirm r.status
  | transferred _ => exact k.same_refl

/-- Market data that comes again changes nothing but how many samples came too late. -/
theorem Feed.exists_handle_handle (f : Feed) (d : Desk) (e : Envelope) :
    ∃ dropped, (f.handle (f.handle d e).2.2 e).2.2 =
      { (f.handle d e).2.2 with
        bars := { (f.handle d e).2.2.bars with dropped := dropped } } := by
  cases hk : e.kind? with
  | none => exact ⟨d.bars.dropped, by simp only [handle, hk]⟩
  | some kind =>
    cases kind with
    | candle =>
      cases hd : (e.decode : Except DeskError CandleUpdate) with
      | ok u =>
        obtain ⟨dropped, hb⟩ := d.bars.add_add u.key u.timeframe u.candle
        exact ⟨dropped, by simp only [handle, hk, hd, hb]⟩
      | error err => exact ⟨d.bars.dropped, by simp only [handle, hk, hd]⟩
    | tradePrint =>
      cases hd : (e.decode : Except DeskError TradePrint) with
      | ok t =>
        exact ⟨d.bars.dropped, by
          simp only [handle, hk, hd, Quotes.storeTrade, Quotes.storeLatest_storeLatest]⟩
      | error err => exact ⟨d.bars.dropped, by simp only [handle, hk, hd]⟩
    | index =>
      cases hd : (e.decode : Except DeskError IndexQuote) with
      | ok i =>
        exact ⟨d.bars.dropped, by
          simp only [handle, hk, hd, Quotes.storeIndex, Quotes.storeLatest_storeLatest]⟩
      | error err => exact ⟨d.bars.dropped, by simp only [handle, hk, hd]⟩
    | tick =>
      cases hd : (e.decode : Except DeskError Tick) with
      | ok t =>
        exact ⟨d.bars.dropped, by
          simp only [handle, hk, hd, Quotes.storeTick, Quotes.storeLatest_storeLatest]⟩
      | error err => exact ⟨d.bars.dropped, by simp only [handle, hk, hd]⟩
    | _ => exact ⟨d.bars.dropped, by simp only [handle, hk]⟩

namespace Desk

variable {d : Desk} {e : Envelope}

/-- An answer that is settled again leaves the desk with what it held. -/
theorem same_settle_settle (h : d.ledger.Kept) (exchange : String) (serial : UInt32) (a : Answer) :
    ((d.settle exchange serial a).settle exchange serial a).Same (d.settle exchange serial a) := by
  obtain ⟨outbox, lastSerial, hd⟩ := d.settle_eq exchange serial a
  obtain ⟨outbox', lastSerial', hd'⟩ := (d.settle exchange serial a).settle_eq exchange serial a
  rw [hd', hd]
  exact ⟨a.same_settle h exchange serial, ⟨d.bars.dropped, rfl⟩, rfl, rfl, rfl⟩

/-- An envelope of a venue has led from one desk to another, and again to a third: that holds the
same, and has asked again for what the second had asked. Those are queries. -/
structure Repeats (exchange : String) (d d₁ d₂ : Desk) : Prop where
  same : d₂.Same d₁
  asked : ∃ rs : List Request,
    (∀ r ∈ rs, r.kind = .queryMoney ∨ r.kind = .queryPosition ∨ r.kind = .queryOrders) ∧
      d.Asked exchange rs d₁ ∧ d₁.Asked exchange rs d₂

/-- A desk that only notes market data asks for nothing. -/
theorem repeats_of_market (exchange : String) (d : Desk) (bars : Bars) (quotes : Quotes)
    (dropped : Nat) :
    Repeats exchange d { d with bars := bars, quotes := quotes }
      { d with bars := { bars with dropped := dropped }, quotes := quotes } where
  same := ⟨d.ledger.same_refl, ⟨dropped, rfl⟩, rfl, rfl, rfl⟩
  asked := by
    refine ⟨[], fun r hr ↦ ?_, ⟨rfl, rfl⟩, ⟨rfl, rfl⟩⟩
    cases hr

/-- An answer that is delivered again. -/
theorem repeats_of_isAnswer (h : d.ledger.Kept) (he : e.isAnswer = true) :
    Repeats e.source d (d.act (.deliver e)) ((d.act (.deliver e)).act (.deliver e)) := by
  cases ha : d.answer? e with
  | none =>
    have hd : d.act (.deliver e) = d := by rw [act_deliver_of_isAnswer d he, ha]
    rw [hd, hd]
    exact repeats_of_market e.source d d.bars d.quotes d.bars.dropped
  | some a =>
    have hd : d.act (.deliver e) = d.settle e.source e.reqSerial a := by
      rw [act_deliver_of_isAnswer d he, ha]
    -- the traders are still there, so the answer gets to the ledger again
    have ha' : (d.settle e.source e.reqSerial a).answer? e = some a := by
      obtain ⟨outbox, lastSerial, hsettle⟩ := d.settle_eq e.source e.reqSerial a
      rw [hsettle]
      exact ha
    have hd' : (d.settle e.source e.reqSerial a).act (.deliver e) =
        (d.settle e.source e.reqSerial a).settle e.source e.reqSerial a := by
      rw [act_deliver_of_isAnswer _ he, ha']
    rw [hd, hd']
    exact ⟨same_settle_settle h e.source e.reqSerial a, a.requests e.source,
      fun r hr ↦ a.kind_of_mem_requests hr, asked_settle d _ _ a, asked_settle _ _ _ a⟩

/-- What is neither an answer nor a tick and is delivered again. -/
theorem repeats_of_not_isAnswer (d : Desk) (he : e.isAnswer = false) (ht : e.tick? = none) :
    Repeats e.source d (d.act (.deliver e)) ((d.act (.deliver e)).act (.deliver e)) := by
  obtain ⟨bars, quotes, hd⟩ := Feed.handle_eq {} d e
  obtain ⟨dropped, hd'⟩ := Feed.exists_handle_handle {} d e
  rw [act_deliver_of_not_isAnswer d he ht, act_deliver_of_not_isAnswer _ he ht, hd', hd]
  exact repeats_of_market e.source d bars quotes dropped

end Desk

/-- In every desk that can come about, an envelope that is no tick and is dispatched twice in a row
leaves the same orders, positions, balances, pending requests, quotes, bars, lines and crossings as
when it is dispatched once, and the strategies as they were. The second time the desk publishes the
queries that it published the first time, under further serials, and nothing else. -/
theorem Link.repeats_of_redelivery {σ : Type} [Strategy σ] (f : Feed) (r : Registry σ)
    (processed : Nat) {d : Desk} {e : Envelope} (hd : d.Reachable) (ht : e.tick? = none) :
    ∃ claimer f₁ d₁ claimer' f₂ d₂,
      (chain f r processed).dispatch d e = .ok (claimer, chain f₁ r (processed + 1), d₁) ∧
      (chain f₁ r (processed + 1)).dispatch d₁ e =
        .ok (claimer', chain f₂ r (processed + 2), d₂) ∧
      Desk.Repeats e.source d d₁ d₂ := by
  obtain ⟨claimer, f₁, h₁⟩ := dispatch_of_no_tick f r processed d ht
  obtain ⟨claimer', f₂, h₂⟩ :=
    dispatch_of_no_tick f₁ r (processed + 1) (d.act (.deliver e)) ht
  refine ⟨claimer, f₁, _, claimer', f₂, _, h₁, h₂, ?_⟩
  by_cases he : e.isAnswer
  · exact Desk.repeats_of_isAnswer hd.kept he
  · exact Desk.repeats_of_not_isAnswer d (Bool.eq_false_iff.mpr he) ht

/-- A record of an order in a report. -/
def record (orderId : String) (status : OrderStatus) : OrderInfo :=
  ⟨quarterly.symbol, quarterly.contract, orderId, 10.0, 0.0, 0.0, 0.0, 0.0, status, .openLong, 0.0, 0,
    "", ""⟩

/-- A report that opens an order, completes it and opens it again, with another in between. -/
def reopening : Envelope :=
  .encode .ordersAnswer 2 quarterly.exchange
    (⟨{}, [record "7" .waiting, record "8" .waiting, record "7" .complete, record "8" .canceled,
      record "7" .partiallyFilled]⟩ : OrdersResponse)

/-- After both deliveries the one order is working and the other is not. -/
theorem Link.repeats_of_reopening :
    let d := ({ Desk.ofTraders [⟨quarterly.exchange, .empty⟩] (.empty [] 30) 3 with
      outbox := {} } : Desk).act oneContract
    d.Reachable ∧ reopening.tick? = none ∧ ∃ claimer f₁ d₁ claimer' f₂ d₂,
      (chain {} ({} : Registry MavgStrategy) 0).dispatch d reopening =
        .ok (claimer, chain f₁ {} 1, d₁) ∧
      (chain f₁ ({} : Registry MavgStrategy) 1).dispatch d₁ reopening =
        .ok (claimer', chain f₂ {} 2, d₂) ∧
      Desk.Repeats quarterly.exchange d d₁ d₂ ∧
      (d₂.ledger.order? "7").map (·.status) = some .partiallyFilled ∧
      (d₂.ledger.order? "8").map (·.status) = none := by
  intro d
  have hreachable : d.Reachable := .act (.start _ _ _ _) oneContract
  have htick : reopening.tick? = none := if_neg (by decide)
  obtain ⟨claimer, f₁, d₁, claimer', f₂, d₂, h₁, h₂, hrepeats⟩ :=
    repeats_of_redelivery {} ({} : Registry MavgStrategy) 0 hreachable htick
  have hstatuses : ((chain {} ({} : Registry MavgStrategy) 0).dispatch d reopening).toOption.map
      (fun a => ["7", "8"].map fun id => (a.2.2.ledger.order? id).map (·.status)) =
        some [some .partiallyFilled, none] := by
    decide +kernel
  rw [h₁] at hstatuses
  obtain ⟨h7, h8⟩ := List.cons.inj (Option.some.inj hstatuses)
  refine ⟨hreachable, htick, claimer, f₁, d₁, claimer', f₂, d₂, h₁, h₂, hrepeats, ?_, ?_⟩
  · rw [hrepeats.same.ledger.order?_eq]
    exact h7
  · rw [hrepeats.same.ledger.order?_eq]
    exact (List.cons.inj h8).1

end TradeDesk
