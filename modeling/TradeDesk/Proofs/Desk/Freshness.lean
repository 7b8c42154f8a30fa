import TradeDesk.Proofs.Desk.Trust

/-!
# Answers that come late

An answer about a position does not say which query it answers in any way that the desk would look
at. After an order every answer makes the position trusted again, also one to a query that was sent
before the order. So a trusted position is fresh in just those runs in which no answer comes so late.
-/

namespace TradeDesk

/-! ### Runs of a desk -/

/-- One thing that happens to a desk: a request of a strategy, its look at unconfirmed requests, or
the arrival of an envelope. -/
inductive Act where
  | place (strategy : String) (c : OrderCommand)
  | cancel (strategy : String) (c : CancelCommand)
  | queryAccount (exchange : String)
  | queryPosition (key : Instrument)
  | queryOrder (key : Instrument) (orderId : String)
  | queryOrdersByStatus (key : Instrument) (status : OrderStatus)
  | transferMoney (exchange symbol : String) (direction : TransferDirection) (amount : Float)
  | review (strategy : String)
  | deliver (e : Envelope)

/-- The envelope that arrives. -/
def Act.inbound : Act → Option Envelope
  | .deliver e => some e
  | _ => none

/-- A tick is quoted and not claimed. -/
theorem Feed.handle_of_tick {e : Envelope} {tick : Tick} (f : Feed) (d : Desk)
    (h : e.tick? = some tick) :
    f.handle d e = (false, f, { d with quotes := d.quotes.storeTick tick }) := by
  obtain ⟨hk, hd⟩ := Envelope.tick?_eq_some.mp h
  simp only [handle, hk, hd]

/-- What market data does to a desk does not depend on how much of it was read before. -/
theorem Feed.desk_handle (f f' : Feed) (d : Desk) (e : Envelope) :
    (f.handle d e).2.2 = (f'.handle d e).2.2 := by
  unfold handle
  cases e.kind? with
  | none => rfl
  | some kind =>
    cases kind with
    | tick => cases (e.decode : Except DeskError Tick) <;> rfl
    | candle => cases (e.decode : Except DeskError CandleUpdate) <;> rfl
    | tradePrint => cases (e.decode : Except DeskError TradePrint) <;> rfl
    | index => cases (e.decode : Except DeskError IndexQuote) <;> rfl
    | _ => rfl

namespace Desk

/-- The desk after an act. An envelope goes to the answers' handler and, unless that claims it, to
the reader of market data; what was read before makes no difference to the desk. -/
def act (d : Desk) : Act → Desk
  | .place strategy c => (d.placeOrder strategy c).2
  | .cancel strategy c => (d.cancelOrders strategy c).2
  | .queryAccount exchange => (d.queryAccount exchange).2
  | .queryPosition key => (d.queryPosition key).2
  | .queryOrder key orderId => (d.queryOrder key orderId).2
  | .queryOrdersByStatus key status => (d.queryOrdersByStatus key status).2
  | .transferMoney exchange symbol direction amount =>
    (d.transferMoney exchange symbol direction amount).2
  | .review strategy => (d.reviewPending strategy).2
  | .deliver e =>
    match Answers.handle d e with
    | (true, d) => d
    | (false, d) => (({} : Feed).handle d e).2.2

variable {e : Envelope}

/-- An envelope that the answers' handler claims goes no further. -/
theorem act_of_claimed {d d' : Desk} (h : Answers.handle d e = (true, d')) :
    d.act (.deliver e) = d' := by
  rw [act, h]

/-- An envelope that it does not claim goes on to the reader of market data. -/
theorem act_of_passed {d d' : Desk} (h : Answers.handle d e = (false, d')) (f : Feed) :
    d.act (.deliver e) = (f.handle d' e).2.2 := by
  rw [act, h]
  exact Feed.desk_handle {} f d' e

/-- An answer that arrives is settled, if it comes from a venue that has a trader and decodes. -/
theorem act_deliver_of_isAnswer (d : Desk) (he : e.isAnswer = true) :
    d.act (.deliver e) =
      match d.answer? e with
      | some a => d.settle e.source e.reqSerial a
      | none => d :=
  act_of_claimed (Answers.handle_of_isAnswer d he)

/-- What is neither an answer nor a tick is market data, if anything. -/
theorem act_deliver_of_not_isAnswer (d : Desk) (he : e.isAnswer = false) (ht : e.tick? = none) :
    d.act (.deliver e) = (({} : Feed).handle d e).2.2 := by
  cases hk : e.kind? with
  | none => simp only [act, Answers.handle, hk]
  | some kind =>
    rw [Envelope.isAnswer, hk] at he
    cases kind with
    | moneyAnswer | positionAnswer | ordersAnswer | placeAnswer | cancelAnswer | transferAnswer =>
      cases he
    | tick =>
      cases hd : (e.decode : Except DeskError Tick) with
      | ok tick =>
        rw [Envelope.tick?_eq_some.mpr ⟨hk, hd⟩] at ht
        cases ht
      | error err => simp only [act, Answers.handle, Feed.handle, hk, hd]
    | _ => simp [act, Answers.handle, Answers.isAnswer, hk]

/-- A tick that arrives reprices its position and is quoted. -/
theorem act_deliver_of_tick (d : Desk) {tick : Tick} (ht : e.tick? = some tick) :
    d.act (.deliver e) = { d.reprice tick with quotes := d.quotes.storeTick tick } := by
  rw [act_of_passed (Answers.handle_of_tick d ht) {}, Feed.handle_of_tick _ _ ht]
  rfl

/-- The turns that acts make, and the desk after them; both lists have the newest first. -/
def run (d : Desk) : List Act → List Turn × Desk
  | [] => ([], d)
  | a :: earlier =>
    let (ts, d) := d.run earlier
    (⟨a.inbound, d.published (d.act a)⟩ :: ts, d.act a)

variable {d : Desk}

private theorem Asks.takes_act {d' : Desk} {a : Act} (h : d.Asks d') (ha : a.inbound = none) :
    ∃ es, (a.inbound ≠ none → (⟨a.inbound, es⟩ : Turn).Quiet) ∧ d.Takes ⟨a.inbound, es⟩ d' := by
  obtain ⟨es, hes, ht⟩ := h
  rw [ha]
  exact ⟨es, fun _ ↦ hes, ht⟩

private theorem exists_takes_act (ho : d.outbox.closed = false) (a : Act) :
    ∃ es, (a.inbound ≠ none → (⟨a.inbound, es⟩ : Turn).Quiet) ∧
      d.Takes ⟨a.inbound, es⟩ (d.act a) := by
  cases a with
  | place strategy c =>
    obtain ⟨es, -, h⟩ := takes_placeOrder ho strategy c
    exact ⟨es, fun hne ↦ absurd rfl hne, h⟩
  | cancel strategy c => exact (asks_cancelOrders ho strategy c).takes_act rfl
  | queryAccount exchange => exact (asks_queryAccount ho exchange).takes_act rfl
  | queryPosition key => exact (asks_queryPosition ho key).takes_act rfl
  | queryOrder key orderId => exact (asks_queryOrder ho key orderId).takes_act rfl
  | queryOrdersByStatus key status => exact (asks_queryOrdersByStatus ho key status).takes_act rfl
  | transferMoney exchange symbol direction amount =>
    exact (asks_transferMoney ho exchange symbol direction amount).takes_act rfl
  | review strategy => exact (asks_reviewPending ho strategy).takes_act rfl
  | deliver e =>
    obtain ⟨es, hes, h⟩ := Answers.takes_handle ho e
    cases hd : Answers.handle d e with
    | mk claimed d₁ =>
      rw [hd] at h
      cases claimed with
      | true =>
        rw [act_of_claimed hd]
        exact ⟨es, fun _ ↦ hes, h⟩
      | false =>
        rw [act_of_passed hd {}]
        obtain ⟨es', hes', h'⟩ := Feed.asks_handle h.opened {} e
        exact ⟨es ++ es', fun _ ↦ hes.append hes', h.trans h'⟩

/-- An act makes one turn. -/
theorem takes_act (ho : d.outbox.closed = false) (a : Act) :
    d.Takes ⟨a.inbound, d.published (d.act a)⟩ (d.act a) := by
  obtain ⟨es, -, h⟩ := exists_takes_act ho a
  have he : d.published (d.act a) = es := h.published_eq
  rw [he]
  exact h

/-- No order goes out when an envelope arrives. -/
theorem quiet_act (ho : d.outbox.closed = false) {a : Act} (ha : a.inbound ≠ none) :
    (⟨a.inbound, d.published (d.act a)⟩ : Turn).Quiet := by
  obtain ⟨es, hes, h⟩ := exists_takes_act ho a
  have he : d.published (d.act a) = es := h.published_eq
  rw [he]
  exact hes ha

/-- The turns of a run tell which positions the desk trusts after it. -/
theorem told_run (h : d.Told []) (acts : List Act) :
    (d.run acts).2.Told (d.run acts).1 := by
  induction acts with
  | nil => exact h
  | cons a earlier ih => exact ih.cons (takes_act ih.opened a)

end Desk

/-! ### Answers since the latest order -/

namespace Turn

/-- The serial under which the answer about an instrument's position came in. -/
def answerSerial? (t : Turn) (key : Instrument) : Option UInt32 :=
  t.inbound.bind fun e => (e.positionAnswer? key).map fun _ => e.reqSerial

/-- There is such a serial exactly when an answer came in. -/
theorem isSome_answerSerial? (t : Turn) (key : Instrument) :
    (t.answerSerial? key).isSome = (t.answer? key).isSome := by
  unfold answerSerial? answer?
  cases t.inbound with
  | none => rfl
  | some e =>
    rw [Option.bind_some, Option.bind_some, Option.isSome_map]

end Turn

/-- The turns since the latest order on an instrument, newest first, if there was an order. -/
def sinceOrder? (key : Instrument) : List Turn → Option (List Turn)
  | [] => none
  | t :: older => if t.orders key then some [] else (sinceOrder? key older).map (t :: ·)

/-- The serial of the last answer about an instrument's position, and the turns before it. -/
def lastAnswer? (key : Instrument) : List Turn → Option (UInt32 × List Turn)
  | [] => none
  | t :: older =>
    match t.answerSerial? key with
    | some serial => some (serial, older)
    | none => lastAnswer? key older

/-- After an order a position is trusted only if the last answer carries the serial of a query that
was sent since the order. -/
def Fresh (key : Instrument) (ts : List Turn) (d : Desk) : Prop :=
  ∀ since ∈ sinceOrder? key ts, d.trust? key = some true →
    ∃ a ∈ lastAnswer? key since, ∃ t ∈ a.2, a.1 ∈ t.queries key

instance (key : Instrument) (ts : List Turn) (d : Desk) : Decidable (Fresh key ts d) :=
  inferInstanceAs (Decidable (∀ since ∈ sinceOrder? key ts, d.trust? key = some true →
    ∃ a ∈ lastAnswer? key since, ∃ t ∈ a.2, a.1 ∈ t.queries key))

/-- Every answer that comes after an order carries the serial of a query that was sent since. -/
def Timely (key : Instrument) : List Turn → Prop
  | [] => True
  | t :: older =>
    (∀ serial ∈ t.answerSerial? key, ∀ since ∈ sinceOrder? key older,
      ∃ q ∈ since, serial ∈ q.queries key) ∧ Timely key older

variable {key : Instrument}

/-- After an order a position is trusted exactly when an answer has come since, whatever it
answers. -/
theorem trustAfter_of_sinceOrder? {ts since : List Turn} (h : sinceOrder? key ts = some since) :
    trustAfter key ts = some (lastAnswer? key since).isSome := by
  induction ts generalizing since with
  | nil => cases h
  | cons t older ih =>
    rw [sinceOrder?] at h
    rw [trustAfter, Turn.trust]
    split at h
    · next ho =>
      cases h
      rw [if_pos ho]
      rfl
    · next ho =>
      obtain ⟨since', hs, rfl⟩ := Option.map_eq_some_iff.mp h
      have hsome := t.isSome_answerSerial? key
      rw [if_neg ho, lastAnswer?, ih hs]
      cases ha : t.answerSerial? key with
      | none =>
        cases hr : t.answer? key with
        | none => rfl
        | some r =>
          rw [ha, hr] at hsome
          cases hsome
      | some serial =>
        cases hr : t.answer? key with
        | none =>
          rw [ha, hr] at hsome
          cases hsome
        | some r =>
          show (if r.positions.isEmpty then some true else some true) = some true
          split
          · rfl
          · rfl

private theorem exists_order_of_sinceOrder? {ts since : List Turn}
    (h : sinceOrder? key ts = some since) : ∃ t ∈ ts, t.orders key = true := by
  induction ts generalizing since with
  | nil => cases h
  | cons t older ih =>
    rw [sinceOrder?] at h
    split at h
    · next ho => exact ⟨t, List.mem_cons_self, ho⟩
    · obtain ⟨since', hs, -⟩ := Option.map_eq_some_iff.mp h
      obtain ⟨t', hm, ho⟩ := ih hs
      exact ⟨t', List.mem_cons_of_mem t hm, ho⟩

/-- After an order the desk trusts the position exactly when an answer has come since. -/
theorem Desk.Told.trust?_of_sinceOrder? {d : Desk} {ts since : List Turn} (h : d.Told ts)
    (hs : sinceOrder? key ts = some since) :
    d.trust? key = some (lastAnswer? key since).isSome := by
  obtain ⟨t, hm, ho⟩ := exists_order_of_sinceOrder? hs
  rw [h.trust key, if_pos (h.served t hm key ho), trustAfter_of_sinceOrder? hs]

/-- A position is fresh when the last answer since the order, if there is one, is not late. -/
theorem fresh_iff {d : Desk} {ts : List Turn} (h : d.Told ts) :
    Fresh key ts d ↔ ∀ since ∈ sinceOrder? key ts, ∀ a ∈ lastAnswer? key since,
      ∃ t ∈ a.2, a.1 ∈ t.queries key := by
  constructor
  · intro hf since hs a ha
    have ht : d.trust? key = some true := by
      rw [h.trust?_of_sinceOrder? hs, Option.mem_def.mp ha]
      rfl
    obtain ⟨a', ha', hq⟩ := hf since hs ht
    have heq : a' = a := Option.some.inj (ha'.symm.trans ha)
    rw [← heq]
    exact hq
  · intro hl since hs ht
    rw [h.trust?_of_sinceOrder? hs] at ht
    obtain ⟨a, ha⟩ := Option.isSome_iff_exists.mp (Option.some.inj ht)
    exact ⟨a, ha, hl since hs a ha⟩

private theorem last_of_timely {ts : List Turn} (h : Timely key ts) :
    ∀ since ∈ sinceOrder? key ts, ∀ a ∈ lastAnswer? key since,
      ∃ t ∈ a.2, a.1 ∈ t.queries key := by
  induction ts with
  | nil =>
    intro since hs
    cases hs
  | cons t older ih =>
    intro since hs a ha
    rw [Option.mem_def, sinceOrder?] at hs
    split at hs
    · cases hs
      cases ha
    · obtain ⟨since', hs', rfl⟩ := Option.map_eq_some_iff.mp hs
      rw [Option.mem_def, lastAnswer?] at ha
      split at ha
      · next serial hserial =>
        cases ha
        exact h.1 serial hserial since' hs'
      · exact ih h.2 since' hs' a ha

/-- The serial of an answer belongs to a turn in which an envelope came in. -/
theorem Turn.inbound_of_answerSerial? {t : Turn} {serial : UInt32}
    (h : t.answerSerial? key = some serial) : t.inbound ≠ none := by
  intro hn
  rw [answerSerial?, hn] at h
  cases h

private theorem timely_of_suffix {d : Desk} {before acts : List Act} (hb : before <:+ acts)
    (h : Timely key (d.run acts).1) : Timely key (d.run before).1 := by
  induction acts with
  | nil =>
    rw [List.suffix_nil.mp hb]
    exact h
  | cons a earlier ih =>
    cases List.suffix_cons_iff.mp hb with
    | inl he =>
      rw [he]
      exact h
    | inr hs => exact ih hs h.2

/-- In any run of a desk, whatever arrives, a position is fresh all the time exactly when every
answer that comes after an order was asked for since. -/
theorem Desk.fresh_iff_timely (traders : List Trader) (bars : Bars) (maxChecks : UInt32)
    (acts : List Act) (key : Instrument) :
    let d := ofTraders traders bars maxChecks
    (∀ before, before <:+ acts → Fresh key (d.run before).1 (d.run before).2) ↔
      Timely key (d.run acts).1 := by
  intro d
  have htold : ∀ acts, (d.run acts).2.Told (d.run acts).1 :=
    fun acts ↦ told_run (told_ofTraders traders bars maxChecks) acts
  constructor
  · induction acts with
    | nil => exact fun _ ↦ trivial
    | cons a earlier ih =>
      intro h
      refine ⟨fun serial hserial since hs ↦ ?_, ih fun before hb ↦ h before (hb.trans ⟨[a], rfl⟩)⟩
      have hin : a.inbound ≠ none := Turn.inbound_of_answerSerial? hserial
      have ho := quiet_act (htold earlier).opened hin key
      have hsince : sinceOrder? key (d.run (a :: earlier)).1 =
          some ((⟨a.inbound, (d.run earlier).2.published ((d.run earlier).2.act a)⟩ : Turn) ::
            since) := by
        show (if _ then _ else _) = _
        rw [if_neg (by rw [ho]; exact Bool.false_ne_true), hs]
        rfl
      have hlast := (fresh_iff (htold (a :: earlier))).mp (h (a :: earlier) List.suffix_rfl) _ hsince
      exact hlast (serial, since) (by rw [Option.mem_def, lastAnswer?, hserial])
  · intro h before hb
    apply (fresh_iff (htold before)).mpr
    exact last_of_timely (timely_of_suffix hb h)

/-- An instrument to trade on. -/
def quarterly : Instrument := ⟨"okex", "btc_usd", "quarter"⟩

/-- The answer to the first request of a desk, which tells that nothing is held. -/
def firstAnswer : Act :=
  .deliver (.encode .positionAnswer 1 quarterly.exchange
    (⟨{}, quarterly.symbol, quarterly.contract, []⟩ : PositionResponse))

/-- An order for one contract. -/
def oneContract : Act :=
  .place "mavg" ⟨quarterly, .openLong, .market, 0.0, 1, 0.0, 10⟩

/-- An answer that is delivered a second time, after an order, makes the position trusted again,
although nothing was asked for since the order. -/
theorem not_fresh_of_redelivery :
    let d := Desk.ofTraders [⟨quarterly.exchange, .empty⟩] (.empty [] 30) 3
    let acts := [firstAnswer, oneContract, firstAnswer, .queryPosition quarterly]
    (d.run acts).1.map (·.queries quarterly) = [[], [], [], [1]] ∧
      (d.run acts).1.map (·.answerSerial? quarterly) = [some 1, none, some 1, none] ∧
      ¬ Fresh quarterly (d.run acts).1 (d.run acts).2 := by
  decide +kernel

end TradeDesk
