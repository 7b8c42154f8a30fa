import TradeDesk.Proofs.Engine.FreshPrices

/-!
# Holdings as the strategy sees them

With the moving-average strategy alone, the envelopes that came and went tell what the strategy sees
of a position. What it sees held is what the venue answered last. But the desk makes no position of
an answer that reports nothing held, and the strategy makes none when it looks: the answer is seen
only if there was an order on the instrument or an answer with something to report.
-/

namespace TradeDesk

open Mavg (outlookOn watches)

/-! ### What venues report -/

/-- What a venue reports of a position, without a floating profit. -/
def PositionDetail.reported (d : PositionDetail) : PositionDetail :=
  ⟨PositionSide.empty.applyVenue d.long, PositionSide.empty.applyVenue d.short⟩

/-- What is held in a cached position as the venue reported it. -/
def Position.holding (p : Position) : PositionDetail := PositionDetail.reported ⟨p.long, p.short⟩

/-- What is held by an answer: its first detail counts, and without one nothing is held. -/
def PositionResponse.holding (r : PositionResponse) : PositionDetail :=
  (r.positions.headD ⟨.empty, .empty⟩).reported

namespace Ledger

/-- What is held on an instrument as far as it is known; nothing while there is no position. -/
def holding (k : Ledger) (key : Instrument) : PositionDetail := (k.positionOrFlat key).holding

/-- Of a cached position the trust in it and what is held are known. -/
theorem map_get?_positions (k : Ledger) (key : Instrument) :
    ((k.positions.get? key).map fun p ↦ (p.valid, p.holding)) =
      (k.trust? key).map fun valid ↦ (valid, k.holding key) := by
  rw [trust?, holding, positionOrFlat]
  cases k.positions.get? key with
  | none => rfl
  | some p => rfl

/-- A position that is taken for unreliable is held as before. -/
theorem holding_disablePosition (k : Ledger) (key key' : Instrument) :
    (k.disablePosition key).holding key' = k.holding key' := by
  rw [holding, positionOrFlat, disablePosition, Table.get?_insert]
  split
  · next h =>
    rw [h]
    rfl
  · rfl

/-- Repricing changes nothing that is held. -/
theorem holding_reprice (k : Ledger) (tick : Tick) (trader : Option Trader) (key : Instrument) :
    (k.reprice tick trader).holding key = k.holding key := by
  cases trader with
  | none => rfl
  | some t =>
    rw [holding, positionOrFlat, reprice, Table.get?_modify, holding, positionOrFlat]
    split
    · next h =>
      rw [h]
      cases k.positions.get? tick.key with
      | none => rfl
      | some p =>
        rw [Option.map_some, Trader.floatProfit_eq]
        rfl
    · rfl

/-- Of a position that an answer names, that is held which it reports. -/
theorem holding_applyPositions (k : Ledger) (exchange : String) (r : PositionResponse)
    (key : Instrument) :
    (k.applyPositions exchange r).2.holding key =
      if r.status.isOk ∧ ⟨exchange, r.symbol, r.contract⟩ = key then r.holding
      else k.holding key := by
  rw [holding, positionOrFlat, get?_applyPositions, PositionResponse.holding]
  split
  · cases r.positions with
    | nil =>
      cases k.positions.get? key with
      | none => rfl
      | some p => rfl
    | cons d rest => rfl
  · rfl

/-- Of all answers only a report of a position changes what is held. -/
theorem holding_settle (k : Ledger) (exchange : String) (serial : UInt32) (a : Answer)
    (key : Instrument) :
    (a.settle k exchange serial).holding key =
      match a with
      | .report (.positions r) =>
        if r.status.isOk ∧ ⟨exchange, r.symbol, r.contract⟩ = key then r.holding
        else k.holding key
      | _ => k.holding key := by
  rw [holding, positionOrFlat, positions_settle]
  cases a with
  | report r =>
    cases r with
    | positions r => exact holding_applyPositions k exchange r key
    | money r => rfl
    | orders r => rfl
  | placed r => rfl
  | canceled r => rfl
  | transferred r => rfl

end Ledger

/-! ### One envelope -/

namespace Desk

variable {d d' : Desk} {key : Instrument}

/-- What is held on an instrument as far as the desk knows. -/
def holding (d : Desk) (key : Instrument) : PositionDetail := d.ledger.holding key

/-- An order changes nothing that is held. -/
theorem holding_placeOrder (d : Desk) (strategy : String) (c : OrderCommand) (key : Instrument) :
    (d.placeOrder strategy c).2.holding key = d.holding key := by
  unfold placeOrder request
  cases d.traders.get? c.key.exchange with
  | none => rfl
  | some t => exact Ledger.holding_disablePosition _ c.key key

/-- Orders change nothing that is held. -/
theorem Places.holding_eq {strategy : String} {n : Nat} (h : d.Places strategy key n d')
    (key' : Instrument) : d'.holding key' = d.holding key' := by
  obtain ⟨cs, -, -, rfl⟩ := h
  induction cs generalizing d with
  | nil => rfl
  | cons c rest ih => exact ih.trans (d.holding_placeOrder strategy c key')

/-- Of the position of an instrument whose venue has a trader, that is held after an envelope which
the envelope answers, or else what was held. -/
theorem holding_deliver (d : Desk) (e : Envelope)
    (hserved : d.traders.contains key.exchange = true) :
    (d.act (.deliver e)).holding key =
      ((e.positionAnswer? key).map (·.holding)).getD (d.holding key) := by
  by_cases he : e.isAnswer = true
  · rw [act_deliver_of_isAnswer d he]
    by_cases hx : d.traders.contains e.source = true
    · rw [answer?, if_pos hx, Envelope.positionAnswer?_eq]
      cases e.answer? with
      | none => rfl
      | some a =>
        obtain ⟨outbox, serial, hd⟩ := d.settle_eq e.source e.reqSerial a
        show (d.settle e.source e.reqSerial a).holding key = _
        rw [hd, holding, Ledger.holding_settle]
        cases a with
        | report r =>
          cases r with
          | positions r =>
            simp only
            split
            · rfl
            · rfl
          | money r => rfl
          | orders r => rfl
        | placed r => rfl
        | canceled r => rfl
        | transferred r => rfl
    · have hsource : e.source ≠ key.exchange := by
        intro hs
        rw [hs] at hx
        exact hx hserved
      rw [answer?, if_neg hx, Envelope.positionAnswer?_of_source_ne hsource]
      rfl
  · have hno : e.positionAnswer? key = none := by
      rw [Envelope.positionAnswer?_eq,
        Envelope.answer?_of_not_isAnswer (Bool.eq_false_iff.mpr he)]
    rw [hno]
    cases ht : e.tick? with
    | none =>
      obtain ⟨bars, quotes, hfeed⟩ := ({} : Feed).handle_eq d e
      rw [act_deliver_of_not_isAnswer d (Bool.eq_false_iff.mpr he) ht, hfeed]
      rfl
    | some tick =>
      rw [act_deliver_of_tick d ht]
      exact Ledger.holding_reprice _ _ _ _

end Desk

namespace MavgStrategy

private theorem ledger_queryPositions (keys : List Instrument) (d : Desk) :
    (queryPositions d keys).ledger = d.ledger := by
  induction keys generalizing d with
  | nil => rfl
  | cons key rest ih => exact (ih _).trans (d.request_frame key.exchange (.position key)).2

/-- Asking for everything again changes nothing that is known. -/
theorem ledger_refresh (s : MavgStrategy) (d : Desk) : (s.refresh d).ledger = d.ledger := by
  have haccount := (d.request_frame s.exchange .account).2
  unfold refresh
  split
  · next hd =>
    rw [Desk.queryAccount] at hd
    rw [hd] at haccount
    exact haccount
  · next hd =>
    rw [Desk.queryAccount] at hd
    rw [hd] at haccount
    exact (ledger_queryPositions _ _).trans haccount

/-- The strategy's look changes no positions. -/
theorem positions_review (s : MavgStrategy) (d : Desk) :
    (s.review d).2.ledger.positions = d.ledger.positions := by
  have hpending : (d.reviewPending Mavg.strategyName).2.ledger.positions = d.ledger.positions := rfl
  unfold review
  split
  · next hd =>
    rw [hd] at hpending
    exact hpending
  · next hd =>
    rw [hd] at hpending
    show (s.refresh _).ledger.positions = _
    rw [ledger_refresh]
    exact hpending

/-- The strategy's look changes nothing that is held. -/
theorem holding_review (s : MavgStrategy) (d : Desk) (key : Instrument) :
    (s.review d).2.holding key = d.holding key := by
  unfold Desk.holding Ledger.holding Ledger.positionOrFlat
  rw [positions_review]

end MavgStrategy

/-! ### What turns tell -/

/-- What is held on an instrument after turns, newest first: what the last answer told. -/
def holdingAfter (key : Instrument) : List Turn → PositionDetail
  | [] => ⟨.empty, .empty⟩
  | t :: older => ((t.answer? key).map (·.holding)).getD (holdingAfter key older)

variable {key : Instrument}

/-- The last answer about an instrument's position, if no order on it has gone out since. -/
def standingAnswer? (key : Instrument) : List Turn → Option PositionResponse
  | [] => none
  | t :: older => if t.orders key then none else (t.answer? key).or (standingAnswer? key older)

/-- Since the last answer the position is trusted, if there is one, and that is held which was
answered. -/
theorem after_of_standingAnswer? {ts : List Turn} {r : PositionResponse}
    (h : standingAnswer? key ts = some r) :
    trustAfter key ts = (if ts.any (·.caches key) then some true else none) ∧
      holdingAfter key ts = r.holding := by
  rw [← isSome_trustAfter]
  induction ts with
  | nil => cases h
  | cons t older ih =>
    rw [standingAnswer?] at h
    split at h
    · cases h
    · next ho =>
      rw [trustAfter, Turn.trust, if_neg ho, holdingAfter]
      cases ha : t.answer? key with
      | none =>
        rw [ha, Option.none_or] at h
        exact ih h
      | some r' =>
        rw [ha, Option.some_or] at h
        cases h
        refine ⟨?_, rfl⟩
        -- an empty answer leaves the instrument without a position if it had none
        cases hr : r.positions.isEmpty with
        | true =>
          cases trustAfter key older with
          | none => simp [hr]
          | some valid => simp [hr]
        | false => simp [hr]

/-! ### Sessions -/

namespace Session

/-- The strategy of a session in which it is the only one. -/
def strategy? (s : Session MavgStrategy) : Option MavgStrategy :=
  s.chain.handlers.findSome? fun
    | .strategies r => r.strategies.head?
    | _ => none

/-- What the strategy sees when it decides on an envelope, if it does: its observers look at the
desk that the envelope came to. -/
def outlook? (s : Session MavgStrategy) (e : Envelope) : Option Outlook := do
  let tick ← e.tick?
  let strategy ← s.strategy?
  if s.reaches e ∧ strategy.follows.contains tick.key then
    let d := (strategy.review (s.desk.act (.deliver e))).2
    some (Machine.observeAll d tick (.start tick.key) strategy.machine.observers).2.2
  else none

/-- What holds all through a session with the moving-average strategy alone: the strategy watches
what its settings say, and the turns tell what is held. -/
structure Informed (s : Session MavgStrategy) (m : MavgSettings) : Prop where
  guarded : s.Guarded
  watches : ∃ f strategy n, s.chain = Link.chain f ⟨[strategy]⟩ n ∧
    strategy.machine.observers = watches m
  holding : ∀ key, s.desk.traders.contains key.exchange = true →
    s.desk.holding key = holdingAfter key s.turns

variable {s next : Session MavgStrategy} {m : MavgSettings} {e : Envelope} {o : Outlook}

/-- The strategy of a session whose chain ends in it. -/
theorem strategy?_eq {f : Feed} {strategy : MavgStrategy} {n : Nat}
    (hs : s.chain = Link.chain f ⟨[strategy]⟩ n) : s.strategy? = some strategy := by
  rw [strategy?, hs]
  rfl

/-- An envelope leaves every venue with the trader that it had. -/
theorem Guarded.traders_dispatch (h : s.Guarded) (hd : s.dispatch e = .ok next) :
    next.desk.traders = s.desk.traders := by
  obtain ⟨⟨claimer, c, d⟩, hchain, hnext⟩ := Except.bind_eq_ok.mp hd
  obtain ⟨-, es, -, htakes⟩ := h.solo.careful h.told.opened hchain
  cases hnext
  exact htakes.traders

/-- Every envelope keeps a session informed. -/
theorem Informed.dispatch (h : s.Informed m) (hd : s.dispatch e = .ok next) :
    next.Informed m := by
  have hguarded := h.guarded.dispatch hd
  have htraders := h.guarded.traders_dispatch hd
  have hdeliver : ∀ key, next.desk.traders.contains key.exchange = true →
      (s.desk.act (.deliver e)).holding key =
        ((e.positionAnswer? key).map (·.holding)).getD (holdingAfter key s.turns) := by
    intro key hserved
    rw [htraders] at hserved
    rw [Desk.holding_deliver s.desk e hserved, h.holding key hserved]
  obtain ⟨f, strategy, n, hs, hwatches⟩ := h.watches
  cases ht : e.tick? with
  | none =>
    obtain ⟨f', hd'⟩ := dispatch_of_no_tick hs ht
    rw [hd'] at hd
    cases hd
    exact ⟨hguarded, ⟨f', strategy, n + 1, rfl, hwatches⟩, hdeliver⟩
  | some tick =>
    have hlook : ∀ key, next.desk.traders.contains key.exchange = true →
        (strategy.review (s.desk.act (.deliver e))).2.holding key =
          ((e.positionAnswer? key).map (·.holding)).getD (holdingAfter key s.turns) :=
      fun key hserved ↦ (strategy.holding_review _ key).trans (hdeliver key hserved)
    rw [dispatch_of_tick hs ht] at hd
    obtain ⟨⟨strategy', d⟩, ha, hnext⟩ := Except.map_eq_ok.mp hd
    cases hnext
    split at ha
    · have hplaces := (MavgStrategy.places_onTick ha).1
      exact ⟨hguarded, ⟨f, strategy', n + 1, rfl, MavgStrategy.observers_onTick hwatches ha⟩,
        fun key hserved ↦ (hplaces.holding_eq key).trans (hlook key hserved)⟩
    · cases ha
      exact ⟨hguarded, ⟨f, strategy, n + 1, rfl, hwatches⟩, hlook⟩

/-- A session stays informed throughout. -/
theorem Informed.through (h : s.Informed m) {queue : List Envelope}
    (hs : s.through queue = .ok next) : next.Informed m :=
  holds_through (fun _ _ _ hi hd ↦ Informed.dispatch hi hd) h hs

/-- Every session with the moving-average strategy alone is informed. -/
theorem informed_of_solo? {settings : Settings} {traders : List Trader} {queue : List Envelope}
    (h : solo? settings traders m queue = some s) : s.Informed m := by
  obtain ⟨engine, he, hthrough⟩ := exists_of_solo? h
  obtain ⟨-, bars, strategy, hstrategy, rfl⟩ := Engine.solo_eq he
  refine Informed.through ⟨guarded_begin he, ?_, fun key _ ↦ ?_⟩ hthrough
  · exact ⟨{}, strategy, 0, rfl, MavgStrategy.observers_ofSettings hstrategy⟩
  · show (strategy.refresh _).ledger.holding key = _
    rw [MavgStrategy.ledger_refresh]
    rfl

/-- The strategy sees what there is to see on the desk that the envelope came to. -/
private theorem Informed.exists_outlook (h : s.Informed m) (ho : s.outlook? e = some o) :
    ∃ f strategy n tick, s.chain = Link.chain f ⟨[strategy]⟩ n ∧
      strategy.machine.observers = Mavg.watches m ∧ e.tick? = some tick ∧ s.reaches e = true ∧
      strategy.follows.contains tick.key = true ∧
      o = outlookOn (strategy.review (s.desk.act (.deliver e))).2 (.ofSettings m) tick.key := by
  obtain ⟨f, strategy, n, hs, hwatches⟩ := h.watches
  obtain ⟨tick, ht, ho⟩ := Option.bind_eq_some_iff.mp ho
  obtain ⟨strategy', hstrategy, ho⟩ := Option.bind_eq_some_iff.mp ho
  rw [strategy?_eq hs] at hstrategy
  cases hstrategy
  split at ho
  · next hdecides =>
    simp only [hwatches, Mavg.observeAll_watches] at ho
    cases ho
    exact ⟨f, strategy, n, tick, hs, hwatches, ht, hdecides.1, hdecides.2, rfl⟩
  · cases ho

/-- The strategy sees of a position what the turns tell. -/
theorem Informed.position_eq (h : s.Informed m) (ho : s.outlook? e = some o)
    (hserved : s.desk.traders.contains o.key.exchange = true) :
    o.position.map (fun p ↦ (p.valid, p.holding)) =
      (trustAfter o.key s.turns).map fun valid ↦ (valid, holdingAfter o.key s.turns) := by
  obtain ⟨f, strategy, n, tick, -, -, ht, -, -, rfl⟩ := h.exists_outlook ho
  have hserved : s.desk.traders.contains tick.key.exchange = true := hserved
  have hno := Envelope.positionAnswer?_of_tick ht tick.key
  obtain ⟨hquiet, htakes⟩ := Desk.takes_deliver h.guarded.told.opened e
  have htrust : (s.desk.act (.deliver e)).ledger.trust? tick.key =
      trustAfter tick.key s.turns := by
    have htold := h.guarded.told.trust tick.key
    rw [if_pos hserved] at htold
    exact (htakes.trust?_eq (hquiet _) hno).trans htold
  have hholding : (s.desk.act (.deliver e)).ledger.holding tick.key =
      holdingAfter tick.key s.turns := by
    have hdeliver := Desk.holding_deliver s.desk e hserved
    rw [hno, h.holding tick.key hserved] at hdeliver
    exact hdeliver
  show ((strategy.review _).2.ledger.positions.get? tick.key).map _ = _
  rw [MavgStrategy.positions_review, Ledger.map_get?_positions, htrust, hholding]
  rfl

/-- What the strategy sees when it decides is the outlook that it keeps. -/
theorem Informed.outlook_dispatch (h : s.Informed m) (ho : s.outlook? e = some o)
    (hd : s.dispatch e = .ok next) : next.strategy?.map (·.machine.outlook) = some o := by
  obtain ⟨f, strategy, n, tick, hs, hwatches, ht, hreaches, hfollowed, rfl⟩ := h.exists_outlook ho
  rw [dispatch_of_tick hs ht, if_pos hreaches, MavgStrategy.onTick_eq hwatches,
    if_pos hfollowed] at hd
  obtain ⟨a, ha, rfl⟩ := Except.map_eq_ok.mp hd
  obtain ⟨⟨moved, machine, d⟩, hadvance, ha⟩ := Except.bind_eq_ok.mp ha
  cases ha
  exact congrArg some (Machine.frame_advance hadvance).2

/-- In every session with the moving-average strategy alone, whatever envelopes come in, let the
venue of an instrument have a trader and have answered about the position without an error, and let
no order on the instrument have gone out since. When the strategy decides on a tick of the
instrument, it sees a trusted position with what the last answer reports, and nothing held if that
was empty, provided that there ever was an order on the instrument or an answer with something to
report. Otherwise it sees no position. The outlook that it sees is the one that it keeps. -/
theorem sees_standingAnswer {settings : Settings} {traders : List Trader} {m : MavgSettings}
    {queue : List Envelope} {session : Session MavgStrategy}
    (h : solo? settings traders m queue = some session) {key : Instrument}
    (hserved : session.desk.traders.contains key.exchange = true) {r : PositionResponse}
    (ha : standingAnswer? key session.turns = some r) {e : Envelope} {o : Outlook}
    (ho : session.outlook? e = some o) (hkey : o.key = key) :
    (o.position.map fun p ↦ (p.valid, p.holding)) =
        (if session.turns.any (·.caches key) then some (true, r.holding) else none) ∧
      ∀ next, session.dispatch e = .ok next →
        next.strategy?.map (·.machine.outlook) = some o := by
  have hinformed := informed_of_solo? h
  refine ⟨?_, fun next hd ↦ hinformed.outlook_dispatch ho hd⟩
  subst hkey
  obtain ⟨htrust, hholding⟩ := after_of_standingAnswer? ha
  rw [hinformed.position_eq ho hserved, htrust, hholding]
  split
  · rfl
  · rfl

/-- The balance of an account. -/
def balance : Envelope :=
  .encode .moneyAnswer 1 weekly.exchange (⟨{}, [⟨weekly.symbol, 10.0, 10.0⟩]⟩ : MoneyResponse)

/-- An answer that reports nothing held. -/
def nothingHeld : Envelope :=
  .encode .positionAnswer 3 weekly.exchange
    (⟨{}, weekly.symbol, weekly.contract, []⟩ : PositionResponse)

/-- A price of the instrument. -/
def price : Envelope := .encode .tick 0 weekly.exchange (Link.priced 20.0)

/-- The order that closes the position is accepted, and then nothing is held. The balance comes in
once more. -/
def closedQueue : List Envelope :=
  closingQueue ++
    [.encode .placeAnswer 4 weekly.exchange
      (⟨{}, weekly.symbol, weekly.contract, "1"⟩ : PlaceResponse),
     nothingHeld, balance]

/-- After the order the strategy sees that nothing is held. -/
theorem sees_flat_of_closedQueue :
    ∃ session r o, solo? .standard Settings.standard.traders {} closedQueue = some session ∧
      session.desk.traders.contains weekly.exchange = true ∧
      standingAnswer? weekly session.turns = some r ∧ r.positions = [] ∧
      session.outlook? price = some o ∧ o.key = weekly ∧
      (o.position.map fun p ↦ (p.valid, p.holding)) = some (true, ⟨.empty, .empty⟩) := by
  have hrun : ((solo? .standard Settings.standard.traders {} closedQueue).any fun s ↦
      s.desk.traders.contains weekly.exchange && s.turns.any (·.caches weekly) &&
        (standingAnswer? weekly s.turns).any (·.positions.isEmpty) &&
        (s.outlook? price).any (·.key = weekly)) = true := by
    decide +kernel
  obtain ⟨session, hs, hrun⟩ := (Option.any_eq_true _ _).mp hrun
  rw [Bool.and_eq_true, Bool.and_eq_true, Bool.and_eq_true] at hrun
  obtain ⟨⟨⟨hserved, hcached⟩, hanswer⟩, houtlook⟩ := hrun
  obtain ⟨r, ha, hr⟩ := (Option.any_eq_true _ _).mp hanswer
  obtain ⟨o, ho, hkey⟩ := (Option.any_eq_true _ _).mp houtlook
  have hsees := (sees_standingAnswer hs hserved ha ho (of_decide_eq_true hkey)).1
  rw [if_pos hcached, PositionResponse.holding, List.isEmpty_iff.mp hr] at hsees
  exact ⟨session, r, o, hs, hserved, ha, List.isEmpty_iff.mp hr, ho, of_decide_eq_true hkey, hsees⟩

/-- Without an order before it, the same answer is not seen. -/
theorem sees_none_of_nothingHeld :
    ∃ session r o,
      solo? .standard Settings.standard.traders {} [nothingHeld, balance] = some session ∧
      session.desk.traders.contains weekly.exchange = true ∧
      standingAnswer? weekly session.turns = some r ∧ r.positions = [] ∧
      session.outlook? price = some o ∧ o.key = weekly ∧ o.position.isNone = true := by
  have hrun : ((solo? .standard Settings.standard.traders {} [nothingHeld, balance]).any fun s ↦
      s.desk.traders.contains weekly.exchange &&
        (standingAnswer? weekly s.turns).any (·.positions.isEmpty) &&
        (s.outlook? price).any fun o ↦ o.key = weekly && o.position.isNone) = true := by
    decide +kernel
  obtain ⟨session, hs, hrun⟩ := (Option.any_eq_true _ _).mp hrun
  rw [Bool.and_eq_true, Bool.and_eq_true] at hrun
  obtain ⟨⟨hserved, hanswer⟩, houtlook⟩ := hrun
  obtain ⟨r, ha, hr⟩ := (Option.any_eq_true _ _).mp hanswer
  obtain ⟨o, ho, hsees⟩ := (Option.any_eq_true _ _).mp houtlook
  rw [Bool.and_eq_true, decide_eq_true_eq] at hsees
  exact ⟨session, r, o, hs, hserved, ha, List.isEmpty_iff.mp hr, ho, hsees⟩

end Session

end TradeDesk
