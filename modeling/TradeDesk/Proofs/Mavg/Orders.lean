import TradeDesk.Proofs.Desk.Trust
import TradeDesk.Proofs.Mavg.Discipline
import TradeDesk.Proofs.Mavg.Step

/-!
# When the moving-average strategy orders

A tick makes the strategy order on its own instrument alone, and only while the cached position is
trusted. Everything else that the strategy sends is a query.
-/

namespace TradeDesk

/-! ### Orders on one instrument -/

namespace Desk

/-- At most `n` orders on an instrument were placed for a strategy, and nothing else was done. -/
def Places (d : Desk) (strategy : String) (key : Instrument) (n : Nat) (d' : Desk) : Prop :=
  ∃ cs : List OrderCommand, cs.length ≤ n ∧ (∀ c ∈ cs, c.key = key) ∧
    d' = cs.foldl (fun d c => (d.placeOrder strategy c).2) d

/-- Nothing but orders on an instrument went out. -/
def Orders (key : Instrument) (d d' : Desk) : Prop :=
  ∃ es, (∀ e ∈ es, ∃ (t : Trader) (n : UInt32) (c : OrderCommand),
    c.key = key ∧ e = t.envelope n (.place c)) ∧ d.Takes ⟨none, es⟩ d'

variable {d d' d'' : Desk} {strategy : String} {key : Instrument}

/-- A desk that does nothing places no orders. -/
theorem places_refl (d : Desk) (strategy : String) (key : Instrument) (n : Nat) :
    d.Places strategy key n d := by
  refine ⟨[], Nat.zero_le n, fun c hc ↦ ?_, rfl⟩
  cases hc

private theorem orders_placeOrder (ho : d.outbox.closed = false) (strategy : String)
    (c : OrderCommand) : d.Orders c.key (d.placeOrder strategy c).2 := by
  obtain ⟨es, hes, h⟩ := takes_placeOrder ho strategy c
  refine ⟨es, fun e he ↦ ?_, h⟩
  obtain ⟨t, n, rfl⟩ := hes e he
  exact ⟨t, n, c, rfl, rfl⟩

/-- Orders that are placed are the only envelopes that go out. -/
theorem Places.orders {n : Nat} (h : d.Places strategy key n d')
    (ho : d.outbox.closed = false) : d.Orders key d' := by
  obtain ⟨cs, -, hk, rfl⟩ := h
  induction cs generalizing d with
  | nil =>
    refine ⟨[], fun e he ↦ ?_, takes_of_eq ho rfl rfl fun _ ↦ rfl⟩
    cases he
  | cons c rest ih =>
    obtain ⟨es, hes, ht⟩ := orders_placeOrder ho strategy c
    obtain ⟨es', hes', ht'⟩ := ih ht.opened fun c' hc ↦ hk c' (List.mem_cons_of_mem c hc)
    rw [hk c List.mem_cons_self] at hes
    refine ⟨es ++ es', fun e he ↦ ?_, ht.trans ht'⟩
    cases List.mem_append.mp he with
    | inl hm => exact hes e hm
    | inr hm => exact hes' e hm

/-- Nothing went out but queries, and orders on one instrument, whose position was trusted. -/
def Trades (key : Instrument) (d d' : Desk) : Prop :=
  ∃ es, (∀ key', (⟨none, es⟩ : Turn).orders key' = true → key' = key ∧ d.trust? key = some true) ∧
    d.Takes ⟨none, es⟩ d'

/-- Asking is trading on no instrument. -/
theorem Asks.trades (h : d.Asks d') (key : Instrument) : d.Trades key d' := by
  obtain ⟨es, hes, ht⟩ := h
  refine ⟨es, fun key' hk ↦ ?_, ht⟩
  rw [hes key'] at hk
  cases hk

/-- Orders that only a trusted position allows. -/
theorem Orders.trades (h : d.Orders key d') (hd : d.trust? key ≠ some true → d' = d) :
    d.Trades key d' := by
  obtain ⟨es, hes, ht⟩ := h
  refine ⟨es, fun key' hk ↦ ?_, ht⟩
  obtain ⟨e, he, hc⟩ := List.any_eq_true.mp hk
  obtain ⟨t, n, c, hkey, rfl⟩ := hes e he
  obtain ⟨c', hc', hkey'⟩ := (t.concerns_placeOrder n _ key').mp hc
  cases hc'
  refine ⟨hkey'.symm.trans hkey, Decidable.byContradiction fun hne ↦ ?_⟩
  have hsent := ht.sent
  rw [hd hne] at hsent
  rw [List.self_eq_append_right.mp hsent] at he
  cases he

/-- What was asked for before the orders belongs to them. -/
theorem Asks.trans_trades (h : d.Asks d') (h' : d'.Trades key d'') : d.Trades key d'' := by
  have htrust := h.trust?_eq key
  obtain ⟨es, hes, ht⟩ := h
  obtain ⟨es', hes', ht'⟩ := h'
  refine ⟨es ++ es', fun key' hk ↦ ?_, ht.trans ht'⟩
  rw [Turn.orders_append none none, hes key', Bool.false_or] at hk
  rw [← htrust]
  exact hes' key' hk

end Desk

/-! ### One tick -/

namespace Mavg

variable {d d' : Desk} {tick : Tick} {m m' : StrategyMachine}

/-- A position that the outlook relies on is trusted. -/
theorem trust?_of_validPosition? (h : (seen m d tick).validPosition? ≠ none) :
    d.trust? tick.key = some true := by
  obtain ⟨p, hv⟩ := Option.ne_none_iff_exists'.mp h
  obtain ⟨ho, hvalid⟩ := Option.filter_eq_some_iff.mp hv
  cases position_seen m d tick with
  | inl hn =>
    rw [hn] at ho
    cases ho
  | inr hc =>
    rw [ho] at hc
    rw [Desk.trust?, Ledger.trust?, ← hc, Option.map_some, hvalid]

/-- On one tick the machine places at most two orders, on the instrument of the tick, and none while
its position is not trusted. -/
theorem Stepped.places (h : Stepped m d tick m' d') :
    d.Places strategyName tick.key 2 d' ∧ (d.trust? tick.key ≠ some true → d' = d) := by
  have hdesk := h.desk_eq
  rw [Deal.fst_carryAll] at hdesk
  have hdisc := disciplined_orders (m.mode m.current) d tick (seen m d tick) m.data
  refine ⟨⟨_, length_orders_le _ d tick (seen m d tick) m.data, fun c hc ↦ ?_, hdesk⟩,
    fun hne ↦ ?_⟩
  · exact (hdisc.key_eq c hc).trans (key_seen m d tick)
  · have hnone : (seen m d tick).validPosition? = none :=
      Decidable.byContradiction fun hv ↦ hne (trust?_of_validPosition? hv)
    have hcs : (decided m d tick).deals.map Deal.command = [] := hdisc.waits (Or.inr hnone)
    rw [hcs] at hdesk
    exact hdesk

/-- A decision ends in a fault only while the position of the tick's instrument is trusted. -/
theorem trust?_of_target_error {f : Fault} (h : (decided m d tick).target = .error f) :
    d.trust? tick.key = some true := by
  cases f
  obtain ⟨n, p, side, -, -, hp, -⟩ := target_eq_error_iff.mp h
  apply trust?_of_validPosition? (m := m)
  rw [hp]
  exact Option.some_ne_none p

end Mavg

namespace MavgStrategy

variable {s s' : MavgStrategy} {d d' : Desk} {tick : Tick}

/-- On one tick the strategy places at most two orders, on the instrument of the tick, and none
while its position is not trusted. -/
theorem places_onTick (h : s.onTick d tick = .ok (s', d')) :
    d.Places Mavg.strategyName tick.key 2 d' ∧ (d.trust? tick.key ≠ some true → d' = d) := by
  rcases onTick_eq_ok h with ⟨-, -, rfl⟩ | ⟨-, -, hstep⟩
  · exact ⟨Desk.places_refl d' Mavg.strategyName tick.key 2, fun _ ↦ rfl⟩
  · exact hstep.places

/-- On one tick the strategy orders on the instrument of the tick, and only while its position is
trusted. -/
theorem trades_onTick (ho : d.outbox.closed = false) (h : s.onTick d tick = .ok (s', d')) :
    d.Trades tick.key d' := by
  obtain ⟨hplaces, htrust⟩ := places_onTick h
  exact (hplaces.orders ho).trades htrust

/-- The strategy fails on a tick only while the position of its instrument is trusted. -/
theorem trust?_of_onTick_error {f : Fault} (h : s.onTick d tick = .error f) :
    d.trust? tick.key = some true :=
  Mavg.trust?_of_target_error (target_of_onTick_error h)

/-- Asking for everything again is asking. -/
theorem asks_refresh (ho : d.outbox.closed = false) (s : MavgStrategy) : d.Asks (s.refresh d) := by
  have haccount := Desk.asks_queryAccount ho s.exchange
  unfold refresh
  split
  · next d₁ hd =>
    rw [hd] at haccount
    exact haccount
  · next serial d₁ hd =>
    rw [hd] at haccount
    exact haccount.trans (Desk.asks_foldl (fun key _ d ho ↦ Desk.asks_queryPosition ho key)
      haccount.opened)

/-- Looking at unconfirmed requests is at most asking. -/
theorem asks_review (ho : d.outbox.closed = false) (s : MavgStrategy) : d.Asks (s.review d).2 := by
  have hreview := Desk.asks_reviewPending ho Mavg.strategyName
  unfold review
  split
  · next d₁ hd =>
    rw [hd] at hreview
    exact hreview
  · next e rest d₁ hd =>
    rw [hd] at hreview
    exact hreview.trans (asks_refresh hreview.opened s)

end MavgStrategy

end TradeDesk
