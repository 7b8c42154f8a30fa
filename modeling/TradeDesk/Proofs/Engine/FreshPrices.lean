import TradeDesk.Proofs.Account.FloatingProfit
import TradeDesk.Proofs.Desk.Redelivery
import TradeDesk.Proofs.Engine.Backlog
import TradeDesk.Proofs.Mavg.Outlook

/-!
# Decisions on fresh prices

A tick goes through the accounts before it comes to the strategy. So whatever the strategy saw
before, and whatever profit was cached, it decides with the floating profit at the price of the very
tick that it decides on, and with everything else as the desk has it.
-/

namespace TradeDesk

open Mavg (SignalReader outlookOn watches)

/-! ### The desk when the strategy decides -/

namespace Desk

variable {d : Desk} {e : Envelope} {tick : Tick} {t : Trader}

/-- What there is to see on a desk once a tick is repriced: the position has the profit at the last
price. -/
def freshOutlook (d : Desk) (t : Trader) (r : SignalReader) (tick : Tick) : Outlook where
  key := tick.key
  position := (d.ledger.positions.get? tick.key).map fun p ↦
    { p with
      long := t.revalue tick.key.symbol tick.last .long p.long
      short := t.revalue tick.key.symbol tick.last .short p.short }
  balance := ((d.ledger.money.get? (tick.key.exchange, tick.key.symbol)).map (·.balance)).getD 0.0
  rights := ((d.ledger.money.get? (tick.key.exchange, tick.key.symbol)).map (·.rights)).getD 0.0
  signals := Table.empty.insert r.timeframe (r.signal d tick.key)

/-- Once a tick came to a desk that has a trader for it, there is to see what is fresh. -/
theorem outlookOn_deliver (hd : d.Reachable) (ht : e.tick? = some tick)
    (htrader : d.traders.get? tick.key.exchange = some t) (r : SignalReader) :
    outlookOn (d.act (.deliver e)) r tick.key = d.freshOutlook t r tick := by
  have hledger : (d.act (.deliver e)).ledger =
      { d.ledger with
        positions := d.ledger.positions.modify tick.key fun p ↦ t.floatProfit p tick.last } := by
    rw [act_deliver_of_tick d ht]
    show d.ledger.reprice tick (d.traders.get? tick.key.exchange) = _
    rw [htrader]
    rfl
  have hmoney : (d.act (.deliver e)).ledger.money = d.ledger.money := by rw [hledger]
  have hbars : (d.act (.deliver e)).bars = d.bars := by rw [act_deliver_of_tick d ht]; rfl
  have hposition : (d.act (.deliver e)).ledger.positions.get? tick.key =
      (d.freshOutlook t r tick).position := by
    rw [hledger]
    show (d.ledger.positions.modify tick.key _).get? tick.key = _
    rw [Table.get?_modify, if_pos rfl, freshOutlook]
    cases hp : d.ledger.positions.get? tick.key with
    | none => rfl
    | some p =>
      have hkey : p.key = tick.key := hd.kept.positions.key_of_get? hp
      rw [Option.map_some, Option.map_some, Trader.floatProfit_eq, hkey]
  rw [Mavg.outlookOn_congr hmoney hbars, hposition]
  rfl

end Desk

/-- A look that leaves nothing pending asks for nothing. -/
theorem MavgStrategy.review_of_ready {s : MavgStrategy} {d : Desk} (h : (s.review d).1 = true) :
    (s.review d).2 = (d.reviewPending Mavg.strategyName).2 := by
  unfold review at h ⊢
  split
  · next hd => rw [hd]
  · next hd =>
    rw [hd] at h
    cases h

namespace Link

variable {d : Desk} {e : Envelope} {tick : Tick} {t : Trader} {settings : MavgSettings}
  {s₀ s : MavgStrategy} {ticks : List (Desk × Tick)}

/-- A tick is decided on what is fresh if it is followed and the strategy's look leaves nothing
pending; otherwise the look is all. -/
theorem dispatch_eq_advance (hd : d.Reachable) (hs : s.machine.observers = watches settings)
    (ht : e.tick? = some tick) (htrader : d.traders.get? tick.key.exchange = some t) (f : Feed)
    (n : Nat) :
    let look := s.review (d.act (.deliver e))
    (chain f ⟨[s]⟩ n).dispatch d e =
      if look.1 ∧ s.follows.contains tick.key then do
        let (_, machine, d') ← { s.clocked tick with
          outlook := d.freshOutlook t (.ofSettings settings) tick }.advance look.2 tick
        return (none, chain f ⟨[{ s with machine := machine }]⟩ (n + 1), d')
      else .ok (none, chain f ⟨[s]⟩ (n + 1), look.2) := by
  intro look
  rw [dispatch_of_tick f ⟨[s]⟩ n d ht, Registry.tickAll_singleton]
  by_cases hready : look.1 = true
  · have hdesk : look.2 = ((d.act (.deliver e)).reviewPending Mavg.strategyName).2 :=
      MavgStrategy.review_of_ready hready
    -- the look changes what is pending, which is not seen
    have hseen : outlookOn look.2 (.ofSettings settings) tick.key =
        d.freshOutlook t (.ofSettings settings) tick := by
      rw [← Desk.outlookOn_deliver hd ht htrader, hdesk]
      exact Mavg.outlookOn_congr rfl rfl _ _
    rw [if_pos hready, MavgStrategy.onTick_eq hs, hseen]
    by_cases hfollowed : s.follows.contains tick.key = true
    · rw [if_pos hfollowed, if_pos ⟨hready, hfollowed⟩]
      generalize { s.clocked tick with
        outlook := d.freshOutlook t (.ofSettings settings) tick }.advance look.2 tick = x
      cases x with
      | ok a => rfl
      | error fault => rfl
    · rw [if_neg hfollowed, if_neg fun h ↦ hfollowed h.2]
      rfl
  · rw [if_neg hready, if_neg fun h ↦ hready h.1]
    rfl

/-- Whatever happened to a desk, and whatever ticks the only strategy has decided on, a tick of a
venue that has a trader is decided on an outlook made of that tick and the desk as it was before.
The position is there exactly if it is cached, with the floating profit at the tick's last price and
all else as cached; the balance is that of the tick's symbol, or zero. The tick is decided on if it
is followed and the strategy's look leaves nothing pending, and then the outlook is the one that the
strategy keeps. -/
theorem dispatch_decides_fresh (hd : d.Reachable)
    (hstart : MavgStrategy.ofSettings settings = .ok s₀) (hrun : s₀.through ticks = .ok s)
    (ht : e.tick? = some tick) (htrader : d.traders.get? tick.key.exchange = some t) (f : Feed)
    (n : Nat) :
    let look := s.review (d.act (.deliver e))
    let outlook := d.freshOutlook t (.ofSettings settings) tick
    (chain f ⟨[s]⟩ n).dispatch d e =
      (if look.1 ∧ s.follows.contains tick.key then do
        let (_, machine, d') ←
          { s.clocked tick with outlook := outlook }.advance look.2 tick
        return (none, chain f ⟨[{ s with machine := machine }]⟩ (n + 1), d')
      else .ok (none, chain f ⟨[s]⟩ (n + 1), look.2)) ∧
    ∀ claimer c' d', look.1 ∧ s.follows.contains tick.key →
      (chain f ⟨[s]⟩ n).dispatch d e = .ok (claimer, c', d') →
      ∃ s', c' = chain f ⟨[s']⟩ (n + 1) ∧ s'.machine.outlook = outlook := by
  intro look outlook
  have hwatches : s.machine.observers = watches settings :=
    MavgStrategy.observers_through (MavgStrategy.observers_ofSettings hstart) hrun
  have hdispatch := dispatch_eq_advance hd hwatches ht htrader f n
  refine ⟨hdispatch, fun claimer c' d' hevaluated h ↦ ?_⟩
  rw [hdispatch, if_pos hevaluated] at h
  obtain ⟨⟨moved, machine, d₁⟩, hadvance, h⟩ := Except.bind_eq_ok.mp h
  cases h
  exact ⟨{ s with machine := machine }, rfl, (Machine.frame_advance hadvance).2⟩

/-- A tick of a followed instrument at a price. -/
def priced (last : Float) : Tick :=
  ⟨Session.weekly, 2000, 0.0, 0.0, 0.0, 0.0, 0.0, 0.0, last, 0.0, 0.0, 0.0, 0.0⟩

/-- A desk with a position that was valued at a former price. -/
def staleDesk : Desk :=
  ((Desk.ofTraders Settings.standard.traders (.empty [] 30) 3).act
    (.deliver (.encode .positionAnswer 1 Session.weekly.exchange
      (⟨{}, Session.weekly.symbol, Session.weekly.contract,
        [⟨{ amount := 5.0, available := 5.0, bond := 0.5, priceCost := 10.0 }, {}⟩]⟩ :
        PositionResponse)))).act
    (.deliver (.encode .tick 0 Session.weekly.exchange (priced 16.0)))

/-- At 16 the five contracts had a profit of 1.875 coins, on which the strategy has decided. At 20
it decides on 2.5 coins. -/
theorem decides_fresh_on_staleDesk :
    let e : Envelope := .encode .tick 0 Session.weekly.exchange (priced 20.0)
    (staleDesk.ledger.positions.get? Session.weekly).any (fun p ↦ p.long.floatProfit == 1.875) ∧
      staleDesk.Reachable ∧
      ∃ s₀ s tick t s' d', MavgStrategy.ofSettings {} = .ok s₀ ∧
        s₀.through [(staleDesk, priced 16.0)] = .ok s ∧ e.tick? = some tick ∧
        staleDesk.traders.get? tick.key.exchange = some t ∧
        (chain {} ⟨[s]⟩ 0).dispatch staleDesk e = .ok (none, chain {} ⟨[s']⟩ 1, d') ∧
        s'.machine.outlook.position.any fun p ↦
          p.valid && p.long.amount == 5.0 && p.long.floatProfit == 2.5 &&
            p.long.floatProfitRate == 5.0 := by
  intro e
  have hreachable : staleDesk.Reachable := by
    unfold staleDesk
    apply Desk.Reachable.act
    apply Desk.Reachable.act
    exact .start Settings.standard.traders (.empty [] 30) 3 {}
  have hrun : ((MavgStrategy.ofSettings {}).toOption.any fun s₀ ↦
      (s₀.through [(staleDesk, priced 16.0)]).toOption.any fun s ↦
        e.tick?.any fun tick ↦
          (staleDesk.traders.get? tick.key.exchange).any fun t ↦
            (s.review (staleDesk.act (.deliver e))).1 && s.follows.contains tick.key &&
            ((chain {} ⟨[s]⟩ 0).dispatch staleDesk e).toOption.any (fun a ↦ a.1.isNone) &&
            (staleDesk.freshOutlook t (.ofSettings {}) tick).position.any fun p ↦
              p.valid && p.long.amount == 5.0 && p.long.floatProfit == 2.5 &&
                p.long.floatProfitRate == 5.0) = true := by
    decide +kernel
  obtain ⟨s₀, h₀, hrun⟩ := Except.any_toOption.mp hrun
  obtain ⟨s, hthrough, hrun⟩ := Except.any_toOption.mp hrun
  obtain ⟨tick, ht, hrun⟩ := (Option.any_eq_true _ _).mp hrun
  obtain ⟨t, htrader, hrun⟩ := (Option.any_eq_true _ _).mp hrun
  rw [Bool.and_eq_true, Bool.and_eq_true, Bool.and_eq_true] at hrun
  obtain ⟨⟨⟨hready, hfollowed⟩, hdispatch⟩, hprofit⟩ := hrun
  obtain ⟨⟨claimer, c', d'⟩, hdispatch, hclaimer⟩ := Except.any_toOption.mp hdispatch
  cases Option.isNone_iff_eq_none.mp hclaimer
  obtain ⟨-, hkept⟩ := dispatch_decides_fresh hreachable h₀ hthrough ht htrader {} 0
  obtain ⟨s', rfl, houtlook⟩ := hkept none c' d' ⟨hready, hfollowed⟩ hdispatch
  refine ⟨by decide +kernel, hreachable, s₀, s, tick, t, s', d', h₀, hthrough, ht, htrader,
    hdispatch, ?_⟩
  rw [houtlook]
  exact hprofit

end Link

end TradeDesk
