import TradeDesk.Proofs.Desk.Confirmation
import TradeDesk.Proofs.Engine.OrderGate
import TradeDesk.Proofs.Mavg.Commitments
import TradeDesk.Proofs.Settings.Acceptance

/-!
# Orders that wait

With the moving-average strategy alone at most two orders wait for their confirmation, both from one
tick. The strategy looks at them on every tick since, and decides again once none is left: when the
last is confirmed, or at the latest when it has looked often enough.
-/

namespace TradeDesk

/-! ### What waits after turns -/

namespace Turn

/-- How many turns began with a tick. -/
def ticks (ts : List Turn) : Nat := ts.countP (·.tick?.isSome)

/-- Another tick. -/
theorem ticks_cons_of_tick {t : Turn} (h : t.tick?.isSome) (ts : List Turn) :
    ticks (t :: ts) = ticks ts + 1 :=
  List.countP_cons_of_pos (p := fun t : Turn ↦ t.tick?.isSome) h

/-- Another turn without a tick. -/
theorem ticks_cons_of_no_tick {t : Turn} (h : t.tick? = none) (ts : List Turn) :
    ticks (t :: ts) = ticks ts :=
  List.countP_cons_of_neg (p := fun t : Turn ↦ t.tick?.isSome) (by simp [h])

end Turn

/-- At most two requests are pending after turns, newest first. They are orders of one turn, which
began with a tick; no order has gone out since, and the strategy has looked at them once for every
tick since, and not often enough. -/
structure Backlog (maxChecks : Nat) (ts : List Turn) (p : Pending) : Prop where
  size_le : p.size ≤ 2
  ordered : p.entries.entries ≠ [] → ∃ newer t older tick, ts = newer ++ t :: older ∧
    t.tick? = some tick ∧ (∀ t' ∈ newer, t'.Quiet) ∧ Turn.ticks newer < maxChecks ∧
    ∀ x ∈ p.entries.entries, t.Ordered Mavg.strategyName tick.key (Turn.ticks newer) x.2

namespace Backlog

variable {maxChecks : Nat} {ts : List Turn} {t : Turn} {p p' : Pending}

/-- Without pending requests there is no backlog. -/
theorem of_nil (h : p.entries.entries = []) : Backlog maxChecks ts p where
  size_le := by simp [Pending.size, h]
  ordered hne := absurd h hne

/-- Every pending request is the strategy's and may still be looked at. -/
theorem own (h : Backlog maxChecks ts p) {x : UInt32 × PendingRequest}
    (hx : x ∈ p.entries.entries) :
    x.2.strategy = Mavg.strategyName ∧ x.2.checks < maxChecks := by
  obtain ⟨newer, t, older, tick, -, -, -, hlt, hall⟩ := h.ordered (List.ne_nil_of_mem hx)
  have ho := hall x hx
  exact ⟨ho.strategy_eq, ho.checks_eq ▸ hlt⟩

/-- A turn without a tick or an order at most takes from the backlog. -/
theorem cons_of_no_tick (h : Backlog maxChecks ts p) (ht : t.tick? = none) (hq : t.Quiet)
    (hp : p'.entries.entries.Sublist p.entries.entries) : Backlog maxChecks (t :: ts) p' where
  size_le := Nat.le_trans hp.length_le h.size_le
  ordered hne := by
    have hne₀ : p.entries.entries ≠ [] := by
      intro hnil
      rw [hnil] at hp
      exact hne (List.sublist_nil.mp hp)
    obtain ⟨newer, t', older, tick, rfl, htick, hquiet, hlt, hall⟩ := h.ordered hne₀
    have hticks := Turn.ticks_cons_of_no_tick ht newer
    refine ⟨t :: newer, t', older, tick, rfl, htick, List.forall_mem_cons.mpr ⟨hq, hquiet⟩,
      hticks ▸ hlt, fun x hx ↦ ?_⟩
    rw [hticks]
    exact hall x (hp.subset hx)

/-- On a tick without an order the strategy looks at the backlog. -/
theorem cons_of_tick (h : Backlog maxChecks ts p) (ht : t.tick?.isSome) (hq : t.Quiet) :
    Backlog maxChecks (t :: ts) (p.review Mavg.strategyName maxChecks).2 where
  size_le := Nat.le_trans (List.length_filterMap_le _ _) h.size_le
  ordered hne := by
    -- what is left of the oldest entry tells how often all were looked at
    obtain ⟨⟨n, e⟩, hne⟩ := List.exists_mem_of_ne_nil _ hne
    obtain ⟨e₀, he₀, hlook⟩ := Pending.mem_review.mp hne
    obtain ⟨newer, t', older, tick, rfl, htick, hquiet, -, hall⟩ :=
      h.ordered (List.ne_nil_of_mem he₀)
    have hticks := Turn.ticks_cons_of_tick ht newer
    refine ⟨t :: newer, t', older, tick, rfl, htick, List.forall_mem_cons.mpr ⟨hq, hquiet⟩, ?_,
      fun x hx ↦ ?_⟩
    · have ho := hall _ he₀
      have hlt := (Pending.of_look_own ho.strategy_eq hlook).1
      rw [hticks, ← ho.checks_eq]
      exact hlt
    · obtain ⟨n', e'⟩ := x
      obtain ⟨e₁, he₁, hlook₁⟩ := Pending.mem_review.mp hx
      have ho := hall _ he₁
      obtain ⟨-, rfl⟩ := Pending.of_look_own ho.strategy_eq hlook₁
      rw [hticks]
      exact ⟨ho.strategy_eq, ho.kind_eq, ho.data_eq, ho.serial_mem, congrArg (· + 1) ho.checks_eq⟩

/-- The strategy's look counts for everything that it leaves. -/
theorem succ_le_checks (h : Backlog maxChecks ts p) {k : Nat}
    (hall : ∀ x ∈ p.entries.entries, k ≤ x.2.checks) :
    ∀ x ∈ (p.review Mavg.strategyName maxChecks).2.entries.entries, k + 1 ≤ x.2.checks := by
  rintro ⟨n, e⟩ hx
  obtain ⟨e₀, he₀, hlook⟩ := Pending.mem_review.mp hx
  obtain ⟨-, rfl⟩ := Pending.of_look_own (h.own he₀).1 hlook
  exact Nat.succ_le_succ (hall _ he₀)

/-- The orders of a tick on which nothing was pending make a new backlog. -/
theorem of_commits {d d' : Desk} {e : Envelope} {tick : Tick} {es' : List Envelope}
    (hpos : 0 < maxChecks) (ht : e.tick? = some tick)
    (hnil : d.ledger.pending.entries.entries = [])
    (h : d.Commits Mavg.strategyName tick.key 2 es' d') (es : List Envelope) :
    Backlog maxChecks (⟨some e, es ++ es'⟩ :: ts) d'.ledger.pending where
  size_le := by
    have hsize := h.size_le
    rwa [show d.ledger.pending.size = 0 from congrArg List.length hnil, Nat.zero_add] at hsize
  ordered _ := by
    refine ⟨[], ⟨some e, es ++ es'⟩, ts, tick, rfl, ht, fun t' hm ↦ ?_, hpos, fun x hx ↦ ?_⟩
    · cases hm
    · have hx := h.mem x hx
      rw [hnil] at hx
      cases hx with
      | inl hx => cases hx
      | inr ho => exact ho.append_left es

end Backlog

/-- The only strategy has the tick, unless its look passes the tick over. -/
theorem Registry.tickAll_singleton (tick : Tick) (d : Desk) (s : MavgStrategy) :
    tickAll tick d [s] =
      (if (s.review d).1 then s.onTick (s.review d).2 tick else .ok (s, (s.review d).2)).map
        fun a => ([a.1], a.2) := by
  rw [tickAll_cons]
  show ((if (s.review d).1 then s.onTick (s.review d).2 tick
    else .ok (s, (s.review d).2)) >>= _) = _
  generalize (if (s.review d).1 then s.onTick (s.review d).2 tick
    else .ok (s, (s.review d).2)) = x
  cases x with
  | ok a => rfl
  | error f => rfl

/-! ### Sessions -/

namespace Session

/-- The strategy's requests that an envelope and the look that a tick brings would leave pending. -/
def left (s : Session MavgStrategy) (e : Envelope) : List PendingRequest :=
  ((s.desk.act (.deliver e)).reviewPending Mavg.strategyName).1

/-- An envelope is a tick on which none of the strategy's requests stays pending, so that the
strategy decides. -/
def reaches (s : Session MavgStrategy) (e : Envelope) : Bool :=
  e.tick?.isSome && (s.left e).isEmpty

/-- For every tick of a queue, whether the strategy decides on it, up to the first on which the
session cannot go on. -/
def reached (s : Session MavgStrategy) : List Envelope → List Bool
  | [] => []
  | e :: rest =>
    let here := if e.tick?.isSome then [s.reaches e] else []
    match s.dispatch e with
    | .ok next => here ++ next.reached rest
    | .error _ => here

variable {s next : Session MavgStrategy} {e : Envelope} {tick : Tick} {f : Feed}
  {strategy : MavgStrategy} {n : Nat}

/-- What is no tick does not come to the strategy. -/
theorem dispatch_of_no_tick (hs : s.chain = Link.chain f ⟨[strategy]⟩ n) (ht : e.tick? = none) :
    ∃ f', s.dispatch e = .ok ⟨Link.chain f' ⟨[strategy]⟩ (n + 1), s.desk.act (.deliver e),
      ⟨some e, s.desk.published (s.desk.act (.deliver e))⟩ :: s.turns⟩ := by
  obtain ⟨claimer, f', hd⟩ := Link.dispatch_of_no_tick f ⟨[strategy]⟩ n s.desk ht
  refine ⟨f', ?_⟩
  rw [dispatch, hs, hd]
  rfl

/-- The strategy decides on just the ticks that reach it. -/
theorem dispatch_of_tick (hs : s.chain = Link.chain f ⟨[strategy]⟩ n) (ht : e.tick? = some tick) :
    s.dispatch e =
      (if s.reaches e then strategy.onTick (strategy.review (s.desk.act (.deliver e))).2 tick
        else .ok (strategy, (strategy.review (s.desk.act (.deliver e))).2)).map fun a =>
          ⟨Link.chain f ⟨[a.1]⟩ (n + 1), a.2, ⟨some e, s.desk.published a.2⟩ :: s.turns⟩ := by
  have hready : (strategy.review (s.desk.act (.deliver e))).1 = s.reaches e := by
    rw [reaches, ht, MavgStrategy.review_fst]
    rfl
  rw [dispatch, hs, Link.dispatch_of_tick f ⟨[strategy]⟩ n s.desk ht, Registry.tickAll_singleton,
    hready]
  generalize (if s.reaches e then strategy.onTick (strategy.review (s.desk.act (.deliver e))).2 tick
    else .ok (strategy, (strategy.review (s.desk.act (.deliver e))).2)) = x
  cases x with
  | ok a => rfl
  | error fault => rfl

/-- What holds all through a session with the moving-average strategy alone. -/
structure Bounded (s : Session MavgStrategy) (maxChecks : Nat) : Prop where
  guarded : s.Guarded
  maxChecks_eq : s.desk.maxChecks.toNat = maxChecks
  maxChecks_pos : 0 < maxChecks
  backlog : Backlog maxChecks s.turns s.desk.ledger.pending

variable {maxChecks : Nat}

/-- An envelope without a tick at most takes from the backlog. -/
theorem Bounded.exists_of_no_tick (h : s.Bounded maxChecks) (ht : e.tick? = none) :
    ∃ next t, s.dispatch e = .ok next ∧ next.turns = t :: s.turns ∧ t.Quiet ∧
      next.Bounded maxChecks ∧
      next.desk.ledger.pending.entries.entries.Sublist s.desk.ledger.pending.entries.entries := by
  obtain ⟨f, strategy, n, hs⟩ := h.guarded.solo
  obtain ⟨f', hd⟩ := dispatch_of_no_tick hs ht
  obtain ⟨hquiet, -⟩ := Desk.takes_deliver h.guarded.told.opened e
  have hleads := Desk.leads_act s.desk (.deliver e)
  have hsub : (s.desk.act (.deliver e)).ledger.pending.entries.entries.Sublist
      s.desk.ledger.pending.entries.entries := by
    rw [hleads.pending_eq, Act.pending]
    split
    · exact List.filter_sublist
    · exact List.Sublist.refl _
  refine ⟨_, _, hd, rfl, hquiet, ⟨h.guarded.dispatch hd, ?_, h.maxChecks_pos, ?_⟩, hsub⟩
  · rw [← h.maxChecks_eq]
    exact congrArg _ hleads.maxChecks_eq
  · exact h.backlog.cons_of_no_tick ht hquiet hsub

private theorem Bounded.pending_deliver (h : s.Bounded maxChecks) (ht : e.tick? = some tick) :
    (s.desk.act (.deliver e)).ledger.pending = s.desk.ledger.pending ∧
      (s.desk.act (.deliver e)).maxChecks.toNat = maxChecks := by
  have hleads := Desk.leads_act s.desk (.deliver e)
  refine ⟨?_, ?_⟩
  · rw [hleads.pending_eq, Act.pending, Envelope.confirms_of_tick ht, Bool.and_false]
    rfl
  · rw [hleads.maxChecks_eq, h.maxChecks_eq]

/-- A tick reaches the strategy exactly when its look leaves nothing pending. -/
theorem Bounded.reaches_iff (h : s.Bounded maxChecks) (ht : e.tick? = some tick) :
    s.reaches e = true ↔
      (s.desk.ledger.pending.review Mavg.strategyName maxChecks).2.entries.entries = [] := by
  obtain ⟨hpending, hmax⟩ := h.pending_deliver ht
  have hleft : s.left e = (s.desk.ledger.pending.review Mavg.strategyName maxChecks).1 := by
    rw [← hpending, ← hmax]
    rfl
  have hall : (s.desk.ledger.pending.review Mavg.strategyName maxChecks).1 =
      (s.desk.ledger.pending.review Mavg.strategyName maxChecks).2.entries.values := by
    apply List.filter_eq_self.mpr
    intro e' he'
    obtain ⟨⟨n, e''⟩, hx, rfl⟩ := List.mem_map.mp he'
    obtain ⟨e₀, he₀, hlook⟩ := Pending.mem_review.mp hx
    have hown := (h.backlog.own he₀).1
    obtain ⟨-, rfl⟩ := Pending.of_look_own hown hlook
    exact decide_eq_true hown
  rw [reaches, ht, hleft, hall]
  simp [Table.values]

/-- The strategy's look on a tick, and what it asks for then. -/
theorem Bounded.takes_review (h : s.Bounded maxChecks) (ht : e.tick? = some tick)
    (strategy : MavgStrategy) :
    ∃ es, (⟨some e, es⟩ : Turn).Quiet ∧
      s.desk.Takes ⟨some e, es⟩ (strategy.review (s.desk.act (.deliver e))).2 ∧
      (strategy.review (s.desk.act (.deliver e))).2.ledger.pending =
        (s.desk.ledger.pending.review Mavg.strategyName maxChecks).2 ∧
      (strategy.review (s.desk.act (.deliver e))).2.maxChecks.toNat = maxChecks := by
  obtain ⟨hquiet, htakes⟩ := Desk.takes_deliver h.guarded.told.opened e
  obtain ⟨hpending, hmax⟩ := h.pending_deliver ht
  obtain ⟨es, hes, hasks⟩ := MavgStrategy.asks_review htakes.opened strategy
  obtain ⟨n, hleads⟩ := strategy.leads_review (s.desk.act (.deliver e))
  refine ⟨_, hquiet.append hes, htakes.trans hasks, ?_, ?_⟩
  · rw [hleads.pending_eq, hpending, hmax]
  · rw [hleads.maxChecks_eq, hmax]

/-- A tick that does not reach the strategy leaves orders pending that were looked at once more. -/
theorem Bounded.exists_of_not_reaches (h : s.Bounded maxChecks) (ht : e.tick? = some tick)
    (hr : s.reaches e = false) :
    ∃ next t, s.dispatch e = .ok next ∧ next.turns = t :: s.turns ∧ t.Quiet ∧
      next.Bounded maxChecks ∧
      next.desk.ledger.pending =
        (s.desk.ledger.pending.review Mavg.strategyName maxChecks).2 := by
  obtain ⟨f, strategy, n, hs⟩ := h.guarded.solo
  have hd := dispatch_of_tick hs ht
  rw [hr] at hd
  obtain ⟨es, hes, htakes, hpending, hmax⟩ := h.takes_review ht strategy
  have hquiet : (⟨some e, s.desk.published (strategy.review (s.desk.act (.deliver e))).2⟩ :
      Turn).Quiet := by
    rw [show s.desk.published _ = es from htakes.published_eq]
    exact hes
  refine ⟨_, _, hd, rfl, hquiet, ⟨h.guarded.dispatch hd, hmax, h.maxChecks_pos, ?_⟩, hpending⟩
  show Backlog maxChecks _ (strategy.review (s.desk.act (.deliver e))).2.ledger.pending
  rw [hpending]
  exact h.backlog.cons_of_tick (by rw [Turn.tick?, Option.bind_some, ht]; rfl) hquiet

/-- On a tick that reaches it the strategy begins a new backlog. -/
theorem Bounded.dispatch_of_reaches (h : s.Bounded maxChecks) (ht : e.tick? = some tick)
    (hr : s.reaches e = true) (hd : s.dispatch e = .ok next) : next.Bounded maxChecks := by
  have hguarded := h.guarded.dispatch hd
  obtain ⟨f, strategy, n, hs⟩ := h.guarded.solo
  obtain ⟨es, -, htakes, hpending, hmax⟩ := h.takes_review ht strategy
  have hnil :
      (strategy.review (s.desk.act (.deliver e))).2.ledger.pending.entries.entries = [] := by
    rw [hpending]
    exact (h.reaches_iff ht).mp hr
  rw [dispatch_of_tick hs ht, hr] at hd
  cases htick : strategy.onTick (strategy.review (s.desk.act (.deliver e))).2 tick with
  | error fault =>
    rw [if_pos rfl, htick] at hd
    cases hd
  | ok a =>
    obtain ⟨strategy', d'⟩ := a
    rw [if_pos rfl, htick] at hd
    cases hd
    obtain ⟨es', hcommits⟩ := (MavgStrategy.places_onTick htick).1.commits htakes.opened
    have hsent : s.desk.published d' = es ++ es' := by
      rw [Desk.published, hcommits.sent_eq, htakes.sent, List.append_assoc, ← Array.length_toList,
        List.drop_left]
    refine ⟨hguarded, ?_, h.maxChecks_pos, ?_⟩
    · rw [← hmax]
      exact congrArg _ hcommits.maxChecks_eq
    · show Backlog maxChecks (⟨some e, s.desk.published d'⟩ :: s.turns) d'.ledger.pending
      rw [hsent]
      exact .of_commits h.maxChecks_pos ht hnil hcommits es

/-- Every envelope keeps the backlog small. -/
theorem Bounded.dispatch (h : s.Bounded maxChecks) (hd : s.dispatch e = .ok next) :
    next.Bounded maxChecks := by
  cases ht : e.tick? with
  | none =>
    obtain ⟨next', t, hd', -, -, hnext, -⟩ := h.exists_of_no_tick ht
    rw [hd'] at hd
    cases hd
    exact hnext
  | some tick =>
    cases hr : s.reaches e with
    | false =>
      obtain ⟨next', t, hd', -, -, hnext, -⟩ := h.exists_of_not_reaches ht hr
      rw [hd'] at hd
      cases hd
      exact hnext
    | true => exact h.dispatch_of_reaches ht hr hd

/-- The backlog stays small throughout. -/
theorem Bounded.through (h : s.Bounded maxChecks) {queue : List Envelope}
    (hs : s.through queue = .ok next) : next.Bounded maxChecks :=
  holds_through (fun _ _ _ hb hd ↦ Bounded.dispatch hb hd) h hs

/-- Without a tick that reaches the strategy the session goes on, and no order goes out. -/
theorem Bounded.exists_quiet (h : s.Bounded maxChecks) (hr : s.reaches e = false) :
    ∃ next t, s.dispatch e = .ok next ∧ next.turns = t :: s.turns ∧ t.Quiet := by
  cases ht : e.tick? with
  | none =>
    obtain ⟨next, t, hd, hturns, hquiet, -⟩ := h.exists_of_no_tick ht
    exact ⟨next, t, hd, hturns, hquiet⟩
  | some tick =>
    obtain ⟨next, t, hd, hturns, hquiet, -⟩ := h.exists_of_not_reaches ht hr
    exact ⟨next, t, hd, hturns, hquiet⟩

/-- Once all pending orders were looked at `k` times, one of the ticks that are left until they are
given up reaches the strategy. -/
theorem Bounded.mem_take_reached (h : s.Bounded maxChecks) {k : Nat} (hk : k < maxChecks)
    (hall : ∀ x ∈ s.desk.ledger.pending.entries.entries, k ≤ x.2.checks) (rest : List Envelope)
    (hlength : maxChecks - k ≤ (s.reached rest).length) :
    true ∈ (s.reached rest).take (maxChecks - k) := by
  induction rest generalizing s k with
  | nil =>
    rw [reached, List.length_nil] at hlength
    omega
  | cons e rest ih =>
    rw [reached] at hlength ⊢
    cases ht : e.tick? with
    | none =>
      obtain ⟨next, t, hd, -, -, hnext, hsub⟩ := h.exists_of_no_tick ht
      simp only [ht, hd, Option.isSome_none, Bool.false_eq_true, if_false, List.nil_append]
        at hlength ⊢
      exact ih hnext hk (fun x hx ↦ hall x (hsub.subset hx)) hlength
    | some tick =>
      obtain ⟨m, hm⟩ : ∃ m, maxChecks - k = m + 1 := ⟨maxChecks - k - 1, by omega⟩
      rw [hm] at hlength ⊢
      cases hr : s.reaches e with
      | true =>
        simp only [Option.isSome_some, if_true]
        cases s.dispatch e with
        | ok next => exact List.mem_cons_self
        | error fault => exact List.mem_cons_self
      | false =>
        obtain ⟨next, t, hd, -, -, hnext, hpending⟩ := h.exists_of_not_reaches ht hr
        simp only [ht, hr, hd, Option.isSome_some, if_true, List.cons_append, List.nil_append,
          List.length_cons] at hlength ⊢
        rw [List.take_succ_cons]
        have hlooked : ∀ x ∈ next.desk.ledger.pending.entries.entries, k + 1 ≤ x.2.checks := by
          rw [hpending]
          exact h.backlog.succ_le_checks hall
        -- something is left, so it may be looked at once more at least
        have hne : next.desk.ledger.pending.entries.entries ≠ [] := by
          rw [hpending]
          intro hnil
          rw [(h.reaches_iff ht).mpr hnil] at hr
          cases hr
        obtain ⟨x, hx⟩ := List.exists_mem_of_ne_nil _ hne
        have hlt := (hnext.backlog.own hx).2
        have hle := hlooked x hx
        have hm' : maxChecks - (k + 1) = m := by omega
        rw [← hm'] at hlength ⊢
        exact List.mem_cons_of_mem _ (ih hnext (by omega) hlooked (by omega))

end Session

namespace Session

variable {settings : Settings} {traders : List Trader} {m : MavgSettings}

/-- A session begins without a backlog. -/
theorem bounded_begin {engine : Engine MavgStrategy}
    (h : Engine.solo settings traders m = .ok engine) :
    engine.begin.Bounded settings.maxChecks.toNat := by
  have hguarded := guarded_begin h
  obtain ⟨hvalid, bars, strategy, -, rfl⟩ := Engine.solo_eq h
  obtain ⟨n, hleads⟩ := strategy.leads_refresh (.ofTraders traders bars settings.maxChecks)
  refine ⟨hguarded, congrArg _ hleads.maxChecks_eq, settings.maxChecks_pos hvalid,
    .of_nil ?_⟩
  exact congrArg (·.entries.entries) hleads.pending_eq

/-- In every session with the moving-average strategy alone, whatever envelopes come in or are lost,
at most two of its requests are pending. They are orders of one tick, the last on which any went
out, and were looked at once for every tick since, fewer times than they may be. The strategy
decides on just the ticks on which its look leaves nothing pending; otherwise no order goes out.
Among as many ticks as a request may be looked at there is always one on which it decides. -/
theorem backlog_of_solo? {queue : List Envelope} {session : Session MavgStrategy}
    (h : solo? settings traders m queue = some session) :
    let backlog := session.desk.ledger.pending.ofStrategy Mavg.strategyName
    let maxChecks := settings.maxChecks.toNat
    backlog.length ≤ 2 ∧
    (backlog ≠ [] → ∃ newer t older tick, session.turns = newer ++ t :: older ∧
      t.tick? = some tick ∧ (∀ t' ∈ newer, t'.Quiet) ∧ Turn.ticks newer < maxChecks ∧
      ∀ e ∈ backlog, t.Ordered Mavg.strategyName tick.key (Turn.ticks newer) e) ∧
    (∀ e tick, e.tick? = some tick → ∃ (strategy : MavgStrategy) (d : Desk) (f : Feed) (n : Nat),
      session.dispatch e =
        (if session.reaches e then strategy.onTick d tick else .ok (strategy, d)).map fun a =>
          ⟨Link.chain f ⟨[a.1]⟩ n, a.2, ⟨some e, session.desk.published a.2⟩ :: session.turns⟩) ∧
    (∀ e, session.reaches e = false →
      ∃ next t, session.dispatch e = .ok next ∧ next.turns = t :: session.turns ∧ t.Quiet) ∧
    ∀ rest, maxChecks ≤ (session.reached rest).length →
      true ∈ (session.reached rest).take maxChecks := by
  intro backlog maxChecks
  obtain ⟨engine, he, hthrough⟩ := exists_of_solo? h
  have hbounded : session.Bounded maxChecks := (bounded_begin he).through hthrough
  have hmem : ∀ e ∈ backlog, ∃ n, (n, e) ∈ session.desk.ledger.pending.entries.entries := by
    intro e he
    obtain ⟨⟨n, e'⟩, hx, rfl⟩ := List.mem_map.mp (List.mem_filter.mp he).1
    exact ⟨n, hx⟩
  refine ⟨?_, fun hne ↦ ?_, fun e tick ht ↦ ?_, fun e ↦ hbounded.exists_quiet,
    fun rest hlength ↦ ?_⟩
  · apply Nat.le_trans (List.length_filter_le _ _)
    rw [Table.values, List.length_map]
    exact hbounded.backlog.size_le
  · obtain ⟨e, he⟩ := List.exists_mem_of_ne_nil _ hne
    obtain ⟨n, hx⟩ := hmem e he
    obtain ⟨newer, t, older, tick, hturns, htick, hquiet, hlt, hall⟩ :=
      hbounded.backlog.ordered (List.ne_nil_of_mem hx)
    refine ⟨newer, t, older, tick, hturns, htick, hquiet, hlt, fun e' he' ↦ ?_⟩
    obtain ⟨n', hx'⟩ := hmem e' he'
    exact hall _ hx'
  · obtain ⟨f, strategy, n, hs⟩ := hbounded.guarded.solo
    exact ⟨strategy, _, f, n + 1, dispatch_of_tick hs ht⟩
  · exact hbounded.mem_take_reached hbounded.maxChecks_pos (fun x _ ↦ Nat.zero_le _) rest hlength

/-- Another tick of the instrument. -/
def nextTick : Envelope :=
  .encode .tick 0 weekly.exchange
    (⟨weekly, 2000, 0.0, 0.0, 0.0, 0.0, 0.0, 0.0, 20.0, 0.0, 0.0, 0.0, 0.0⟩ : Tick)

/-- An order whose answer is lost holds the strategy up for two ticks of three. -/
theorem backlog_of_closingQueue :
    ∃ session, solo? .standard Settings.standard.traders {} closingQueue = some session ∧
      (session.desk.ledger.pending.ofStrategy Mavg.strategyName).length = 1 ∧
      session.reached [nextTick, nextTick, nextTick] = [false, false, true] ∧
      true ∈ (session.reached [nextTick, nextTick, nextTick]).take
        Settings.standard.maxChecks.toNat := by
  have hrun : ((solo? .standard Settings.standard.traders {} closingQueue).any fun s =>
      (s.desk.ledger.pending.ofStrategy Mavg.strategyName).length = 1 ∧
        s.reached [nextTick, nextTick, nextTick] = [false, false, true]) = true := by
    decide +kernel
  obtain ⟨session, hs, hsession⟩ := (Option.any_eq_true _ _).mp hrun
  obtain ⟨hlength, hreached⟩ := of_decide_eq_true hsession
  refine ⟨session, hs, hlength, hreached, (backlog_of_solo? hs).2.2.2.2 _ ?_⟩
  rw [hreached]
  decide

end Session

end TradeDesk
