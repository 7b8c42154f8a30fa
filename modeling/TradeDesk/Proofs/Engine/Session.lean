import TradeDesk.Engine
import TradeDesk.Proofs.Dispatch.Ticks
import TradeDesk.Proofs.Mavg.Orders

/-!
# Sessions

A run of an engine, step by step: its chain is started, and then envelopes are dispatched one after
another. Every step is a turn of the desk. With the moving-average strategy alone, a turn sends
orders only on instruments whose positions were trusted before it.
-/

namespace TradeDesk

/-- A run of an engine: its chain, its desk, and the turns so far, newest first. -/
structure Session (σ : Type) where
  chain : Chain (Link σ)
  desk : Desk
  turns : List Turn

section

variable {σ : Type} [Strategy σ]

/-- The session after the chain was started. -/
def Engine.begin (e : Engine σ) : Session σ :=
  let (c, d) := e.chain.start e.desk
  ⟨c, d, [⟨none, e.desk.published d⟩]⟩

namespace Session

/-- The session after one more envelope. -/
def dispatch (s : Session σ) (e : Envelope) : Except Fault (Session σ) := do
  let (_, c, d) ← s.chain.dispatch s.desk e
  return ⟨c, d, ⟨some e, s.desk.published d⟩ :: s.turns⟩

/-- The session after envelopes, oldest first. -/
def through (s : Session σ) (queue : List Envelope) : Except Fault (Session σ) :=
  queue.foldlM dispatch s

/-- What every envelope keeps holds throughout. -/
theorem holds_through {P : Session σ → Prop}
    (hstep : ∀ s s' e, P s → s.dispatch e = .ok s' → P s') {s s' : Session σ} (h : P s)
    {queue : List Envelope} (hs : s.through queue = .ok s') : P s' := by
  induction queue generalizing s with
  | nil =>
    cases hs
    exact h
  | cons e rest ih =>
    obtain ⟨s₁, hd, hs⟩ := Except.bind_eq_ok.mp hs
    exact ih (hstep s s₁ e h hd) hs

end Session

end

/-- The engine whose only strategy is the moving-average strategy. -/
def Engine.solo (s : Settings) (traders : List Trader) (m : MavgSettings) :
    Except DeskError (Engine MavgStrategy) := do
  let e ← Engine.assemble s traders
  e.register (← MavgStrategy.ofSettings m)

/-- The session of that engine after envelopes, if the engine could be assembled and went on to the
last of them. -/
def Session.solo? (s : Settings) (traders : List Trader) (m : MavgSettings)
    (queue : List Envelope) : Option (Session MavgStrategy) :=
  match Engine.solo s traders m with
  | .error _ => none
  | .ok e => (e.begin.through queue).toOption

/-! ### The worker -/

namespace Session

variable {σ : Type} [Strategy σ]

/-- The worker of a session, with the envelopes of a closed queue before it. -/
def worker (s : Session σ) (queue : List Envelope) : Worker (Link σ) Desk where
  chain := s.chain
  state := s.desk
  queue := queue
  closed := true
  shutdown := false
  unseen := false
  owned := true
  watching := true
  waiting := false
  done := false

/-- A turn of the worker dispatches the next envelope. -/
theorem turn_worker_cons (s : Session σ) (e : Envelope) (rest : List Envelope) :
    (s.worker (e :: rest)).turn = (s.dispatch e).map fun s' => s'.worker rest := by
  show (s.chain.dispatch s.desk e >>= _) = Except.map _ (s.chain.dispatch s.desk e >>= _)
  cases s.chain.dispatch s.desk e with
  | error fault => rfl
  | ok a => rfl

private theorem run_of_done {w : Worker (Link σ) Desk} (h : w.done = true) (n : Nat) :
    w.run (List.replicate n .turn) = .ok w := by
  induction n with
  | zero => rfl
  | succ n ih =>
    have hturn : w.step .turn = .ok w := if_pos h
    rw [List.replicate_succ, Worker.run, hturn]
    exact ih

/-- Enough turns of the worker take the session through the queue and stop the handlers. -/
theorem run_worker (s : Session σ) (queue : List Envelope) (n : Nat) :
    (s.worker queue).run (List.replicate (queue.length + 1 + n) .turn) =
      (s.through queue).map fun s' => (s'.worker []).finish := by
  induction queue generalizing s with
  | nil =>
    rw [List.length_nil, Nat.zero_add, Nat.add_comm, List.replicate_succ]
    exact run_of_done rfl n
  | cons e rest ih =>
    have hlength : (e :: rest).length + 1 + n = rest.length + 1 + n + 1 := by
      rw [List.length_cons]
      omega
    rw [hlength, List.replicate_succ, Worker.run, Worker.step, turn_worker_cons, through,
      List.foldlM_cons]
    cases s.dispatch e with
    | error fault => rfl
    | ok s' => exact ih s'

end Session

/-- An engine that nobody shuts down goes through its queue as a session does, and then stops. -/
theorem Engine.run_eq {σ : Type} [Strategy σ] (e : Engine σ) (queue : List Envelope) :
    e.run queue false = (e.begin.through queue).map fun s => (s.worker []).finish :=
  e.begin.run_worker queue 2

/-! ### One envelope -/

namespace Registry

variable {d d' : Desk} {tick : Tick} {s : MavgStrategy} {f : Fault}

/-- A tick makes the only strategy ask, or order on the tick's instrument while its position is
trusted. -/
theorem trades_tickAll (ho : d.outbox.closed = false) {after : List MavgStrategy}
    (h : tickAll tick d [s] = .ok (after, d')) : (∃ s', after = [s']) ∧ d.Trades tick.key d' := by
  have hreview : d.Asks (Strategy.review s d).2.2 := MavgStrategy.asks_review ho s
  rw [tickAll_cons] at h
  obtain ⟨⟨s₁, d₁⟩, htick, h⟩ := Except.bind_eq_ok.mp h
  cases h
  refine ⟨⟨s₁, rfl⟩, ?_⟩
  split at htick
  · exact hreview.trans_trades (MavgStrategy.trades_onTick hreview.opened htick)
  · rw [Except.ok.inj htick] at hreview
    exact hreview.trades tick.key

/-- The only strategy fails on a tick only while the position of its instrument is trusted. -/
theorem trust?_of_tickAll_error (ho : d.outbox.closed = false)
    (h : tickAll tick d [s] = .error f) : d.trust? tick.key = some true := by
  have hreview : d.Asks (Strategy.review s d).2.2 := MavgStrategy.asks_review ho s
  rw [tickAll_cons] at h
  cases Except.bind_eq_error.mp h with
  | inl htick =>
    split at htick
    · rw [← hreview.trust?_eq]
      exact MavgStrategy.trust?_of_onTick_error htick
    · cases htick
  | inr hrest =>
    obtain ⟨a, -, h⟩ := hrest
    cases h

end Registry

namespace Desk

variable {d d' d'' : Desk} {inbound : Option Envelope}

/-- A turn that sends orders only on instruments whose positions were trusted before it. -/
def Careful (d : Desk) (inbound : Option Envelope) (d' : Desk) : Prop :=
  ∃ es, (∀ key, (⟨inbound, es⟩ : Turn).orders key = true → d.trust? key = some true) ∧
    d.Takes ⟨inbound, es⟩ d'

/-- A turn without orders is careful. -/
theorem careful_of_quiet {es : List Envelope} (hes : (⟨inbound, es⟩ : Turn).Quiet)
    (h : d.Takes ⟨inbound, es⟩ d') : d.Careful inbound d' := by
  refine ⟨es, fun key hk ↦ ?_, h⟩
  rw [hes key] at hk
  cases hk

/-- After a turn without orders come the orders on one instrument. -/
theorem Takes.careful {es : List Envelope} {key : Instrument} (h : d.Takes ⟨inbound, es⟩ d')
    (hes : (⟨inbound, es⟩ : Turn).Quiet) (ha : (⟨inbound, es⟩ : Turn).answer? key = none)
    (h' : d'.Trades key d'') : d.Careful inbound d'' := by
  have htrust := h.trust?_eq (hes key) ha
  obtain ⟨es', hes', ht'⟩ := h'
  refine ⟨es ++ es', fun key' hk ↦ ?_, h.trans ht'⟩
  rw [Turn.orders_append inbound none, hes key', Bool.false_or] at hk
  obtain ⟨rfl, ht⟩ := hes' key' hk
  rw [← htrust]
  exact ht

end Desk

/-! ### The chain of the only strategy -/

/-- The chain of a desk on which the moving-average strategy is the only one. -/
def Chain.Solo (c : Chain (Link MavgStrategy)) : Prop :=
  ∃ f s processed, c = Link.chain f ⟨[s]⟩ processed

variable {c c' : Chain (Link MavgStrategy)} {d d' : Desk} {e : Envelope}

/-- A tick is no answer about a position. -/
theorem Envelope.positionAnswer?_of_tick {tick : Tick} (h : e.tick? = some tick)
    (key : Instrument) : e.positionAnswer? key = none := by
  apply Envelope.positionAnswer?_of_ne
  rw [(Envelope.tick?_eq_some.mp h).1]
  simp

/-- An envelope that comes to a desk makes a turn without orders, before the strategies have it. -/
theorem Desk.takes_deliver (ho : d.outbox.closed = false) (e : Envelope) :
    (⟨some e, d.published (d.act (.deliver e))⟩ : Turn).Quiet ∧
      d.Takes ⟨some e, d.published (d.act (.deliver e))⟩ (d.act (.deliver e)) := by
  refine ⟨quiet_act ho (a := .deliver e) fun h ↦ ?_, takes_act ho (.deliver e)⟩
  cases h

/-- One envelope makes a careful turn. -/
theorem Chain.Solo.careful (hc : c.Solo) (ho : d.outbox.closed = false) {claimer : Option String}
    (h : c.dispatch d e = .ok (claimer, c', d')) : c'.Solo ∧ d.Careful (some e) d' := by
  obtain ⟨f, s, processed, rfl⟩ := hc
  obtain ⟨hquiet, htakes⟩ := Desk.takes_deliver ho e
  cases ht : e.tick? with
  | none =>
    obtain ⟨claimer', f', hd⟩ := Link.dispatch_of_no_tick f ⟨[s]⟩ processed d ht
    rw [hd] at h
    cases h
    exact ⟨⟨f', s, processed + 1, rfl⟩, Desk.careful_of_quiet hquiet htakes⟩
  | some tick =>
    rw [Link.dispatch_of_tick f ⟨[s]⟩ processed d ht] at h
    cases htick : Registry.tickAll tick (d.act (.deliver e)) [s] with
    | error fault =>
      rw [htick] at h
      cases h
    | ok a =>
      rw [htick] at h
      cases h
      obtain ⟨⟨s', hs'⟩, htrades⟩ := Registry.trades_tickAll htakes.opened htick
      have hanswer := Envelope.positionAnswer?_of_tick ht tick.key
      refine ⟨⟨f, s', processed + 1, ?_⟩, htakes.careful hquiet hanswer htrades⟩
      rw [← hs']

/-- The chain fails only on a tick whose instrument has a trusted position. -/
theorem Chain.Solo.trust?_of_error (hc : c.Solo) (ho : d.outbox.closed = false) {fault : Fault}
    (h : c.dispatch d e = .error fault) :
    ∃ tick, e.tick? = some tick ∧ d.trust? tick.key = some true := by
  obtain ⟨f, s, processed, rfl⟩ := hc
  obtain ⟨hquiet, htakes⟩ := Desk.takes_deliver ho e
  cases ht : e.tick? with
  | none =>
    obtain ⟨claimer', f', hd⟩ := Link.dispatch_of_no_tick f ⟨[s]⟩ processed d ht
    rw [hd] at h
    cases h
  | some tick =>
    rw [Link.dispatch_of_tick f ⟨[s]⟩ processed d ht] at h
    refine ⟨tick, rfl, ?_⟩
    rw [← htakes.trust?_eq (hquiet _) (Envelope.positionAnswer?_of_tick ht _)]
    cases htick : Registry.tickAll tick (d.act (.deliver e)) [s] with
    | error fault => exact Registry.trust?_of_tickAll_error htakes.opened htick
    | ok a =>
      rw [htick] at h
      cases h

end TradeDesk
