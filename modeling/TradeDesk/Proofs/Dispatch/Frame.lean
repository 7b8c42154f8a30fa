import TradeDesk.Proofs.Desk.Settlement
import TradeDesk.Proofs.Dispatch.Ticks
import TradeDesk.Proofs.Fault

/-!
# What an envelope leaves alone

Every envelope has one way through the chain of a desk, and there are few things that it can change on
that way. An answer changes neither market data nor strategies, market data changes one series or one
quote, and only a tick gets to the strategies.
-/

namespace TradeDesk

/-! ### Tables, bars and quotes -/

/-- Two tables that hold the same under all keys but one. -/
def Table.AgreeOff {κ α : Type} [DecidableEq κ] (t t' : Table κ α) (k : κ) : Prop :=
  ∀ k', k' ≠ k → t'.get? k' = t.get? k'

/-- An insertion changes what is under its key and nothing else. -/
theorem Table.agreeOff_insert {κ α : Type} [DecidableEq κ] (t : Table κ α) (k : κ) (a : α) :
    t.AgreeOff (t.insert k a) k := by
  intro k' hk
  rw [get?_insert, if_neg hk]

/-- A record that comes in changes at most the one of its instrument. -/
theorem Quotes.agreeOff_storeLatest {α : Type} (timestamp : α → UInt64)
    (held : Table Instrument α) (key : Instrument) (a : α) :
    held.AgreeOff (storeLatest timestamp held key a) key := by
  unfold storeLatest
  split
  · split
    · exact fun _ _ ↦ rfl
    · exact held.agreeOff_insert key a
  · exact held.agreeOff_insert key a

/-- At most one series of bars differs, and at most one more sample came too late. -/
structure Bars.AgreeOff (b b' : Bars) (key : Instrument) (tf : Timeframe) : Prop where
  timeframes_eq : b'.timeframes = b.timeframes
  capacity_eq : b'.capacity = b.capacity
  series : b.series.AgreeOff b'.series (key, tf)
  dropped : b'.dropped = b.dropped ∨ b'.dropped = b.dropped + 1

/-- A sample changes at most its own series. -/
theorem Bars.agreeOff_add (b : Bars) (key : Instrument) (tf : Timeframe) (c : Candle) :
    b.AgreeOff (b.add key tf c).2 key tf := by
  unfold add
  split
  · refine ⟨rfl, rfl, b.series.agreeOff_insert _ _, ?_⟩
    dsimp only
    split
    · exact Or.inr rfl
    · exact Or.inl rfl
  · exact ⟨rfl, rfl, fun _ _ ↦ rfl, Or.inl rfl⟩

/-! ### The round of a tick -/

section

variable {σ : Type} [Strategy σ]

/-- A tick goes round strategies, first to last. Each looks at its unconfirmed requests once, and the
tick is given to it just if the look lets it act. -/
inductive Visits (tick : Tick) : Desk → List σ → List σ → Desk → Prop where
  | done (d : Desk) : Visits tick d [] [] d
  | waits {d d₁ d' : Desk} {s s₁ : σ} {rest rest' : List σ}
      (review : Strategy.review s d = (false, s₁, d₁)) (next : Visits tick d₁ rest rest' d') :
      Visits tick d (s :: rest) (s₁ :: rest') d'
  | acts {d d₁ d₂ d' : Desk} {s s₁ s₂ : σ} {rest rest' : List σ}
      (review : Strategy.review s d = (true, s₁, d₁))
      (onTick : Strategy.onTick s₁ d₁ tick = .ok (s₂, d₂)) (next : Visits tick d₂ rest rest' d') :
      Visits tick d (s :: rest) (s₂ :: rest') d'

/-- A tick does not get round: some strategy that may act on it fails, and those after it never see
it. -/
def Breaks (tick : Tick) (d : Desk) (strategies : List σ) (fault : Fault) : Prop :=
  ∃ before s after before' d₁ s₁ d₂, strategies = before ++ s :: after ∧
    Visits tick d before before' d₁ ∧ Strategy.review s d₁ = (true, s₁, d₂) ∧
    Strategy.onTick s₁ d₂ tick = .error fault

namespace Registry

variable {tick : Tick}

/-- The strategies have a tick if it gets round them. -/
theorem tickAll_eq_ok {d d' : Desk} {ss ss' : List σ} :
    tickAll tick d ss = .ok (ss', d') ↔ Visits tick d ss ss' d' := by
  constructor
  · intro h
    induction ss generalizing d ss' with
    | nil =>
      cases h
      exact .done _
    | cons s rest ih =>
      rw [tickAll_cons] at h
      obtain ⟨⟨s₂, d₂⟩, htick, h⟩ := Except.bind_eq_ok.mp h
      obtain ⟨⟨rest', d₃⟩, hrest, h⟩ := Except.bind_eq_ok.mp h
      cases h
      cases hreview : Strategy.review s d with
      | mk ready a =>
        rw [hreview] at htick
        cases ready with
        | true => exact .acts hreview htick (ih hrest)
        | false =>
          cases htick
          exact .waits hreview (ih hrest)
  · intro h
    induction h with
    | done d => rfl
    | waits review _ ih =>
      rw [tickAll_cons, review]
      exact Except.bind_eq_ok.mpr ⟨_, rfl, Except.bind_eq_ok.mpr ⟨_, ih, rfl⟩⟩
    | acts review onTick _ ih =>
      rw [tickAll_cons, review]
      exact Except.bind_eq_ok.mpr ⟨_, onTick, Except.bind_eq_ok.mpr ⟨_, ih, rfl⟩⟩

/-- The strategies fail on a tick if it does not get round them. -/
theorem tickAll_eq_error {d : Desk} {ss : List σ} {fault : Fault} :
    tickAll tick d ss = .error fault ↔ Breaks tick d ss fault := by
  constructor
  · intro h
    induction ss generalizing d with
    | nil => cases h
    | cons s rest ih =>
      rw [tickAll_cons] at h
      cases hreview : Strategy.review s d with
      | mk ready a =>
        rw [hreview] at h
        cases Except.bind_eq_error.mp h with
        | inl htick =>
          cases ready with
          | true => exact ⟨[], s, rest, [], d, a.1, a.2, rfl, .done d, hreview, htick⟩
          | false => cases htick
        | inr hrest =>
          obtain ⟨⟨s₂, d₂⟩, htick, h⟩ := hrest
          cases Except.bind_eq_error.mp h with
          | inl hrest =>
            -- the round breaks further on, and the first strategy has the tick before that
            obtain ⟨before, s', after, before', d₃, s₃, d₄, rfl, hvisits, hfails⟩ := ih hrest
            cases ready with
            | true =>
              exact ⟨s :: before, s', after, s₂ :: before', d₃, s₃, d₄, rfl,
                .acts hreview htick hvisits, hfails⟩
            | false =>
              cases htick
              exact ⟨s :: before, s', after, s₂ :: before', d₃, s₃, d₄, rfl,
                .waits hreview hvisits, hfails⟩
          | inr hok =>
            obtain ⟨_, _, h⟩ := hok
            cases h
  · rintro ⟨before, s, after, before', d₁, s₁, d₂, rfl, hvisits, hreview, htick⟩
    induction hvisits with
    | done d =>
      rw [List.nil_append, tickAll_cons, hreview]
      exact Except.bind_eq_error.mpr (Or.inl htick)
    | waits review _ ih =>
      rw [List.cons_append, tickAll_cons, review]
      exact Except.bind_eq_error.mpr
        (Or.inr ⟨_, rfl, Except.bind_eq_error.mpr (Or.inl (ih hreview))⟩)
    | acts review onTick _ ih =>
      rw [List.cons_append, tickAll_cons, review]
      exact Except.bind_eq_error.mpr
        (Or.inr ⟨_, onTick, Except.bind_eq_error.mpr (Or.inl (ih hreview))⟩)

end Registry

/-! ### The ways of envelopes -/

/-- An answer changes no market data. -/
theorem Answers.exists_handle_of_isAnswer (d : Desk) {e : Envelope} (he : e.isAnswer = true) :
    ∃ ledger outbox serial,
      handle d e = (true, { d with ledger := ledger, outbox := outbox, lastSerial := serial }) := by
  rw [handle_of_isAnswer d he]
  cases d.answer? e with
  | none => exact ⟨d.ledger, d.outbox, d.lastSerial, rfl⟩
  | some a =>
    obtain ⟨outbox, serial, hd⟩ := d.settle_eq e.source e.reqSerial a
    exact ⟨_, outbox, serial, congrArg (true, ·) hd⟩

namespace Link

variable {f : Feed} {r : Registry σ} {processed : Nat} {d : Desk} {e : Envelope}

/-- An envelope that nobody has to do with. -/
theorem dispatch_of_unclaimed (ha : Answers.handle d e = (false, d))
    (hm : f.handle d e = (false, f, d)) (hk : e.kind? ≠ some .tick) :
    (chain f r processed).dispatch d e = .ok (none, chain f r (processed + 1), d) := by
  have hr : r.handle d e = .ok (false, r, d) := by
    unfold Registry.handle
    split
    · next ht => exact absurd ht hk
    · rfl
  rw [dispatch_of_passed r processed ha hm, hr]
  rfl

/-- A tick that decodes goes round the strategies, once it is noted. -/
theorem dispatch_of_tick_eq {tick : Tick} (ht : e.tick? = some tick) :
    let noted := { d.reprice tick with quotes := d.quotes.storeTick tick }
    (∀ claimer c d', (chain f r processed).dispatch d e = .ok (claimer, c, d') ↔
      claimer = none ∧
        ∃ ss, c = chain f ⟨ss⟩ (processed + 1) ∧ Visits tick noted r.strategies ss d') ∧
    ∀ fault, (chain f r processed).dispatch d e = .error fault ↔
      Breaks tick noted r.strategies fault := by
  intro noted
  have hnoted : d.act (.deliver e) = noted := by
    rw [Desk.act_of_passed (Answers.handle_of_tick d ht) f, f.handle_of_tick _ ht]
    rfl
  rw [dispatch_of_tick f r processed d ht, hnoted]
  constructor
  · intro claimer c d'
    constructor
    · intro h
      cases hticks : Registry.tickAll tick noted r.strategies with
      | error fault =>
        rw [hticks] at h
        cases h
      | ok a =>
        rw [hticks] at h
        cases h
        exact ⟨rfl, a.1, rfl, Registry.tickAll_eq_ok.mp hticks⟩
    · rintro ⟨rfl, ss, rfl, hvisits⟩
      rw [Registry.tickAll_eq_ok.mpr hvisits]
      rfl
  · intro fault
    rw [← Registry.tickAll_eq_error]
    cases Registry.tickAll tick noted r.strategies with
    | error fault' =>
      constructor
      · intro h
        cases h
        rfl
      · intro h
        cases h
        rfl
    | ok a =>
      constructor
      · intro h
        cases h
      · intro h
        cases h

/-- Who claims an envelope, and all that it can change. A message without a kind, or a request, goes
through the chain untouched. An answer is claimed by the answers' handler; it changes accounts and
makes requests. Market data is claimed by its reader and changes at most one series or one quote; an
order book changes nothing. A tick that does not decode is claimed and changes nothing; one that
does is claimed by nobody and, once it is noted, goes round the strategies, as far as they do not
fail. -/
theorem dispatch_frame (f : Feed) (r : Registry σ) (processed : Nat) (d : Desk) (e : Envelope) :
    let dispatched := (chain f r processed).dispatch d e
    match e.kind? with
    | none | some .queryMoney | some .queryPosition | some .placeOrder | some .queryOrders
    | some .cancelOrders | some .transferMoney =>
      dispatched = .ok (none, chain f r (processed + 1), d)
    | some .moneyAnswer | some .positionAnswer | some .ordersAnswer | some .placeAnswer
    | some .cancelAnswer | some .transferAnswer =>
      ∃ ledger outbox serial, dispatched = .ok (some "trade", chain f r (processed + 1),
        { d with ledger := ledger, outbox := outbox, lastSerial := serial })
    | some .candle =>
      match (e.decode : Except DeskError CandleUpdate) with
      | .ok u =>
        let bars := (d.bars.add u.key u.timeframe u.candle).2
        dispatched = .ok (some "quote", chain ⟨f.candles + 1⟩ r (processed + 1),
            { d with bars := bars }) ∧
          d.bars.AgreeOff bars u.key u.timeframe
      | .error _ => dispatched = .ok (some "quote", chain f r (processed + 1), d)
    | some .depth => dispatched = .ok (some "quote", chain f r (processed + 1), d)
    | some .tradePrint =>
      match (e.decode : Except DeskError TradePrint) with
      | .ok t =>
        let trades := Quotes.storeLatest TradePrint.timestamp d.quotes.trades t.key t
        dispatched = .ok (some "quote", chain f r (processed + 1),
            { d with quotes := { d.quotes with trades := trades } }) ∧
          d.quotes.trades.AgreeOff trades t.key
      | .error _ => dispatched = .ok (some "quote", chain f r (processed + 1), d)
    | some .index =>
      match (e.decode : Except DeskError IndexQuote) with
      | .ok i =>
        let indices := Quotes.storeLatest IndexQuote.timestamp d.quotes.indices i.key i
        dispatched = .ok (some "quote", chain f r (processed + 1),
            { d with quotes := { d.quotes with indices := indices } }) ∧
          d.quotes.indices.AgreeOff indices i.key
      | .error _ => dispatched = .ok (some "quote", chain f r (processed + 1), d)
    | some .tick =>
      match (e.decode : Except DeskError Tick) with
      | .ok tick =>
        let noted := { d.reprice tick with quotes := d.quotes.storeTick tick }
        (∀ claimer c d', dispatched = .ok (claimer, c, d') ↔ claimer = none ∧
          ∃ ss, c = chain f ⟨ss⟩ (processed + 1) ∧ Visits tick noted r.strategies ss d') ∧
        ∀ fault, dispatched = .error fault ↔ Breaks tick noted r.strategies fault
      | .error _ => dispatched = .ok (some "trade", chain f r (processed + 1), d) := by
  intro dispatched
  cases hk : e.kind? with
  | none =>
    exact dispatch_of_unclaimed (by simp only [Answers.handle, hk])
      (by simp only [Feed.handle, hk]) (by simp [hk])
  | some kind =>
    cases kind with
    | queryMoney | queryPosition | placeOrder | queryOrders | cancelOrders | transferMoney =>
      exact dispatch_of_unclaimed (by simp [Answers.handle, Answers.isAnswer, hk])
        (by simp only [Feed.handle, hk]) (by simp [hk])
    | moneyAnswer | positionAnswer | ordersAnswer | placeAnswer | cancelAnswer | transferAnswer =>
      have he : e.isAnswer = true := by simp [Envelope.isAnswer, Answers.isAnswer, hk]
      obtain ⟨ledger, outbox, serial, ha⟩ := Answers.exists_handle_of_isAnswer d he
      exact ⟨ledger, outbox, serial, dispatch_of_answer f r processed ha⟩
    | candle =>
      have ha : Answers.handle d e = (false, d) := by simp [Answers.handle, Answers.isAnswer, hk]
      cases hd : (e.decode : Except DeskError CandleUpdate) with
      | ok u =>
        exact ⟨dispatch_of_market r processed ha (by simp only [Feed.handle, hk, hd]),
          d.bars.agreeOff_add u.key u.timeframe u.candle⟩
      | error err => exact dispatch_of_market r processed ha (by simp only [Feed.handle, hk, hd])
    | depth =>
      have ha : Answers.handle d e = (false, d) := by simp [Answers.handle, Answers.isAnswer, hk]
      exact dispatch_of_market r processed ha (by simp only [Feed.handle, hk])
    | tradePrint =>
      have ha : Answers.handle d e = (false, d) := by simp [Answers.handle, Answers.isAnswer, hk]
      cases hd : (e.decode : Except DeskError TradePrint) with
      | ok t =>
        exact ⟨dispatch_of_market r processed ha
            (by simp only [Feed.handle, hk, hd, Quotes.storeTrade]),
          Quotes.agreeOff_storeLatest _ d.quotes.trades t.key t⟩
      | error err => exact dispatch_of_market r processed ha (by simp only [Feed.handle, hk, hd])
    | index =>
      have ha : Answers.handle d e = (false, d) := by simp [Answers.handle, Answers.isAnswer, hk]
      cases hd : (e.decode : Except DeskError IndexQuote) with
      | ok i =>
        exact ⟨dispatch_of_market r processed ha
            (by simp only [Feed.handle, hk, hd, Quotes.storeIndex]),
          Quotes.agreeOff_storeLatest _ d.quotes.indices i.key i⟩
      | error err => exact dispatch_of_market r processed ha (by simp only [Feed.handle, hk, hd])
    | tick =>
      cases hd : (e.decode : Except DeskError Tick) with
      | ok tick => exact dispatch_of_tick_eq (Envelope.tick?_eq_some.mpr ⟨hk, hd⟩)
      | error err =>
        exact dispatch_of_answer f r processed (by simp only [Answers.handle, hk, hd])

end Link

end

end TradeDesk
