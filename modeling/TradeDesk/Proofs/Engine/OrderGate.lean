import TradeDesk.Proofs.Engine.Session

/-!
# When an engine orders

With the moving-average strategy alone, an engine orders on an instrument only after its venue has
told the position anew: since the last order on the instrument, or, before the first, with something
to report.
-/

namespace TradeDesk

/-! ### Turns that allow an order -/

/-- The turns so far allow an order on an instrument: an answer about its position has come since
the last order on it, and without any order an answer that reports a position. -/
structure Armed (key : Instrument) (ts : List Turn) : Prop where
  answered : ∃ newer t older, ts = newer ++ t :: older ∧ (t.answer? key).isSome = true ∧
    ∀ t' ∈ newer ++ [t], t'.orders key = false
  reported : (∀ t ∈ ts, t.orders key = false) →
    ∃ t ∈ ts, ∃ r ∈ t.answer? key, r.positions ≠ []

variable {key : Instrument}

private theorem exists_positions {ts : List Turn} (hn : ∀ t ∈ ts, t.orders key = false)
    (h : trustAfter key ts ≠ none) : ∃ t ∈ ts, ∃ r ∈ t.answer? key, r.positions ≠ [] := by
  have hcached : ts.any (·.caches key) = true := by
    rw [← isSome_trustAfter]
    exact Option.isSome_iff_ne_none.mpr h
  obtain ⟨t, hm, ht⟩ := List.any_eq_true.mp hcached
  rw [Turn.caches, hn t hm, Bool.false_or] at ht
  obtain ⟨r, hr, hp⟩ := (Option.any_eq_true _ _).mp ht
  refine ⟨t, hm, r, hr, fun hnil ↦ ?_⟩
  rw [hnil] at hp
  cases hp

/-- Trust comes from turns that allow an order. -/
theorem armed_of_trustAfter {ts : List Turn} (h : trustAfter key ts = some true) :
    Armed key ts where
  answered := by
    induction ts with
    | nil => cases h
    | cons t older ih =>
      rw [trustAfter, Turn.trust] at h
      split at h
      · cases h
      · next ho =>
        have ho' : t.orders key = false := Bool.eq_false_iff.mpr ho
        split at h
        · next r hr =>
          refine ⟨[], t, older, rfl, ?_, fun t' hm ↦ ?_⟩
          · rw [hr]
            rfl
          · rw [List.mem_singleton.mp hm]
            exact ho'
        · obtain ⟨newer, t', rest, rfl, ha, hn⟩ := ih h
          refine ⟨t :: newer, t', rest, rfl, ha, fun t'' hm ↦ ?_⟩
          cases List.mem_cons.mp hm with
          | inl he =>
            rw [he]
            exact ho'
          | inr hm => exact hn t'' hm
  reported hn := exists_positions hn (by rw [h]; simp)

/-! ### Sessions -/

/-- Every turn that sent an order on an instrument came after turns that left its position
trusted. -/
def Gated (key : Instrument) : List Turn → Prop
  | [] => True
  | t :: older => (t.orders key = true → trustAfter key older = some true) ∧ Gated key older

theorem Gated.trustAfter_of_orders {newer older : List Turn} {t : Turn}
    (h : Gated key (newer ++ t :: older)) (ho : t.orders key = true) :
    trustAfter key older = some true := by
  induction newer with
  | nil => exact h.1 ho
  | cons t' newer ih => exact ih h.2

namespace Session

/-- What holds all through a session with the moving-average strategy alone. -/
structure Guarded (s : Session MavgStrategy) : Prop where
  solo : s.chain.Solo
  told : s.desk.Told s.turns
  gated : ∀ key, Gated key s.turns

variable {s s' : Session MavgStrategy}

/-- A position that is trusted has been told so by the turns. -/
theorem trustAfter_of_told {d : Desk} {ts : List Turn} (h : d.Told ts)
    (ht : d.trust? key = some true) : trustAfter key ts = some true := by
  rw [h.trust key] at ht
  split at ht
  · exact ht
  · cases ht

private theorem guarded_turn {d d' : Desk} {ts : List Turn} {inbound : Option Envelope}
    (htold : d.Told ts) (hgated : ∀ key, Gated key ts) (h : d.Careful inbound d') :
    d'.Told (⟨inbound, d.published d'⟩ :: ts) ∧
      ∀ key, Gated key (⟨inbound, d.published d'⟩ :: ts) := by
  obtain ⟨es, hes, ht⟩ := h
  have he : d.published d' = es := ht.published_eq
  rw [he]
  exact ⟨htold.cons ht,
    fun key ↦ ⟨fun ho ↦ trustAfter_of_told htold (hes key ho), hgated key⟩⟩

/-- Every envelope keeps a session guarded. -/
theorem Guarded.dispatch (h : s.Guarded) {e : Envelope} (hs : s.dispatch e = .ok s') :
    s'.Guarded := by
  obtain ⟨⟨claimer, c, d⟩, hd, hs⟩ := Except.bind_eq_ok.mp hs
  cases hs
  obtain ⟨hsolo, hcareful⟩ := h.solo.careful h.told.opened hd
  obtain ⟨htold, hgated⟩ := guarded_turn h.told h.gated hcareful
  exact ⟨hsolo, htold, hgated⟩

/-- A session stays guarded throughout. -/
theorem Guarded.through (h : s.Guarded) {queue : List Envelope} (hs : s.through queue = .ok s') :
    s'.Guarded :=
  holds_through (fun _ _ _ hg hd ↦ Guarded.dispatch hg hd) h hs

end Session

private theorem assemble_eq {settings : Settings} {traders : List Trader}
    {engine : Engine MavgStrategy} (h : Engine.assemble settings traders = .ok engine) :
    settings.validate = .ok () ∧
      ∃ bars, engine = ⟨.ofTraders traders bars settings.maxChecks, .empty⟩ := by
  obtain ⟨⟨⟩, hvalid, h⟩ := Except.bind_eq_ok.mp h
  obtain ⟨-, -, h⟩ := Except.bind_eq_ok.mp h
  cases h
  exact ⟨hvalid, _, rfl⟩

/-- The engine with the moving-average strategy alone has valid settings, a new desk and the
strategy of its settings. -/
theorem Engine.solo_eq {settings : Settings} {traders : List Trader} {m : MavgSettings}
    {engine : Engine MavgStrategy} (h : Engine.solo settings traders m = .ok engine) :
    settings.validate = .ok () ∧
      ∃ bars s, MavgStrategy.ofSettings m = .ok s ∧
        engine = ⟨.ofTraders traders bars settings.maxChecks, ⟨[s]⟩⟩ := by
  obtain ⟨e, he, h⟩ := Except.bind_eq_ok.mp h
  obtain ⟨hvalid, bars, rfl⟩ := assemble_eq he
  obtain ⟨s, hs, h⟩ := Except.bind_eq_ok.mp h
  obtain ⟨r, hr, h⟩ := Except.bind_eq_ok.mp h
  cases h
  refine ⟨hvalid, bars, s, hs, ?_⟩
  cases hr
  rfl

namespace Session

/-- The session begins guarded. -/
theorem guarded_begin {settings : Settings} {traders : List Trader} {m : MavgSettings}
    {engine : Engine MavgStrategy} (h : Engine.solo settings traders m = .ok engine) :
    engine.begin.Guarded := by
  obtain ⟨-, bars, s, -, rfl⟩ := Engine.solo_eq h
  have htold := Desk.told_ofTraders traders bars settings.maxChecks
  obtain ⟨es, hes, htakes⟩ := MavgStrategy.asks_refresh htold.opened s
  obtain ⟨htold', hgated⟩ :=
    guarded_turn htold (fun _ ↦ trivial) (Desk.careful_of_quiet hes htakes)
  exact ⟨⟨{}, s, 0, rfl⟩, htold', hgated⟩

/-- A session is one of an engine that could be assembled, and has gone through its queue. -/
theorem exists_of_solo? {settings : Settings} {traders : List Trader} {m : MavgSettings}
    {queue : List Envelope} {session : Session MavgStrategy}
    (h : solo? settings traders m queue = some session) :
    ∃ engine, Engine.solo settings traders m = .ok engine ∧
      engine.begin.through queue = .ok session := by
  unfold solo? at h
  split at h
  · cases h
  · next engine he =>
    cases hthrough : engine.begin.through queue with
    | error fault =>
      rw [hthrough] at h
      cases h
    | ok s =>
      rw [hthrough] at h
      cases h
      exact ⟨engine, he, hthrough⟩

/-- Every session with the moving-average strategy alone is guarded. -/
theorem guarded_of_solo? {settings : Settings} {traders : List Trader} {m : MavgSettings}
    {queue : List Envelope} {session : Session MavgStrategy}
    (h : solo? settings traders m queue = some session) : session.Guarded := by
  obtain ⟨engine, he, hthrough⟩ := exists_of_solo? h
  exact (guarded_begin he).through hthrough

/-- In every session with the moving-average strategy alone, whatever envelopes come in, an order on
an instrument goes out only after turns that allow it, and a tick on which the strategy cannot go on
comes only after turns that allow an order on its instrument. -/
theorem armed_of_orders {settings : Settings} {traders : List Trader} {m : MavgSettings}
    {queue : List Envelope} {session : Session MavgStrategy}
    (h : solo? settings traders m queue = some session) :
    (∀ key newer t older, session.turns = newer ++ t :: older → t.orders key = true →
      Armed key older) ∧
    ∀ e fault, session.dispatch e = .error fault →
      ∃ tick, e.kind? = some .tick ∧ (e.decode : Except DeskError Tick) = .ok tick ∧
        Armed tick.key session.turns := by
  have hguarded := guarded_of_solo? h
  constructor
  · intro key newer t older hturns ho
    have hgated := hguarded.gated key
    rw [hturns] at hgated
    exact armed_of_trustAfter (hgated.trustAfter_of_orders ho)
  · intro e fault hd
    cases Except.bind_eq_error.mp hd with
    | inl hchain =>
      obtain ⟨tick, htick, ht⟩ := hguarded.solo.trust?_of_error hguarded.told.opened hchain
      obtain ⟨hk, hdecode⟩ := Envelope.tick?_eq_some.mp htick
      exact ⟨tick, hk, hdecode, armed_of_trustAfter (trustAfter_of_told hguarded.told ht)⟩
    | inr hrest =>
      obtain ⟨a, -, hr⟩ := hrest
      cases hr

/-- An instrument that the strategy follows by default. -/
def weekly : Instrument := ⟨"okex", "etc_usd", "this_week"⟩

/-- The balance and a position of the account come in, and then a price at which the position is to
be closed. -/
def closingQueue : List Envelope :=
  [.encode .moneyAnswer 1 weekly.exchange
    (⟨{}, [⟨weekly.symbol, 10.0, 10.0⟩]⟩ : MoneyResponse),
   .encode .positionAnswer 3 weekly.exchange
    (⟨{}, weekly.symbol, weekly.contract,
      [⟨{ amount := 5.0, available := 5.0, bond := 0.5, priceCost := 10.0 }, {}⟩]⟩ :
      PositionResponse),
   .encode .tick 0 weekly.exchange
    (⟨weekly, 1000, 0.0, 0.0, 0.0, 0.0, 0.0, 0.0, 20.0, 0.0, 0.0, 0.0, 0.0⟩ : Tick)]

/-- The strategy closes the position on the last envelope, which the turns before allow. -/
theorem armed_of_closingQueue :
    ∃ session t older, solo? .standard Settings.standard.traders {} closingQueue = some session ∧
      session.turns = t :: older ∧ t.orders weekly = true ∧ Armed weekly older := by
  have hrun : ((solo? .standard Settings.standard.traders {} closingQueue).any fun s =>
      s.turns.head?.any (·.orders weekly)) = true := by
    decide +kernel
  obtain ⟨session, hs, hhead⟩ := (Option.any_eq_true _ _).mp hrun
  obtain ⟨t, ht, ho⟩ := (Option.any_eq_true _ _).mp hhead
  obtain ⟨older, hturns⟩ := List.head?_eq_some_iff.mp ht
  exact ⟨session, t, older, hs, hturns, ho,
    (armed_of_orders hs).1 weekly [] t older hturns ho⟩

end Session

end TradeDesk
