import TradeDesk.Proofs.Mavg.Rounds

/-!
# The limit on openings

Normal mode counts the orders that open a side, over all instruments and both sides, from where the
strategy turned to it. An opening that is too small for a contract or has no trader is not counted.
As there is at most one on a tick, and none once the count is at the limit, the limit is kept.
-/

namespace TradeDesk.MavgStrategy

open Mavg

variable {s₀ s s' : MavgStrategy} {settings : MavgSettings} {follows : List Instrument} {d d' : Desk}
  {tick : Tick} {opens : UInt32} {ticks : List (Desk × Tick)} {rounds : List Round}

/-! ### One tick -/

/-- Two openings would need two signals. -/
theorem countP_isOpening_dealsOn_le (s : MavgStrategy) (d : Desk) (tick : Tick) :
    (s.dealsOn d tick).countP Deal.isOpening ≤ 1 := by
  cases hfollowed : s.follows.contains tick.key with
  | false => simp [dealsOn_of_other hfollowed]
  | true =>
    have honce := (disciplined_orders ((s.clocked tick).mode (s.clocked tick).current) d tick
      (seen (s.clocked tick) d tick) (s.clocked tick).data).opens_once
    rw [ModeState.orders, List.countP_map] at honce
    rw [dealsOn_of_followed hfollowed, countP_isOpening_accepted]
    refine Nat.le_trans (Nat.le_of_eq (List.countP_congr fun deal hdeal ↦ ?_)) honce
    obtain ⟨-, -, p, side, -, hwants⟩ := wants_of_mem_deals hdeal
    rw [← hwants.isOpening_command]
    cases h : deal.command.orderType <;> simp [OrderType.isOpening, h]

/-- With the openings of a tick the limit is kept. -/
theorem opens_onTick_le (hs : s.Steady settings follows)
    (hopens : s.machine.mode .normal = .normal opens) (hle : opens ≤ settings.openLimit) (d : Desk)
    (tick : Tick) :
    opens.toNat + (s.dealsOn d tick).countP Deal.isOpening ≤ settings.openLimit.toNat := by
  have honce := s.countP_isOpening_dealsOn_le d tick
  rcases Nat.eq_zero_or_pos ((s.dealsOn d tick).countP Deal.isOpening) with hnone | hsome
  · rw [hnone]
    exact UInt32.le_iff_toNat_le.mp hle
  · obtain ⟨deal, hdeal, hopening⟩ := List.countP_pos_iff.mp hsome
    obtain ⟨-, -, o, p, side, -, hwants⟩ := of_mem_dealsOn hdeal
    cases hwants with
    | closing => exact absurd hopening Bool.false_ne_true
    | opening mode held signal count =>
      have hcurrent : s.machine.current = .normal := by
        rw [← hs.named s.machine.current, mode]
        rfl
      rw [hcurrent, hopens] at mode
      cases mode
      have hlt : opens.toNat < s.machine.data.settings.openLimit.toNat :=
        UInt32.lt_iff_toNat_lt.mp count
      rw [hs.settings_eq] at hlt
      omega

/-! ### Runs -/

/-- Normal mode has counted the openings since the strategy turned to it. -/
theorem normal_history (h₀ : ofSettings settings = .ok s₀)
    (h : s₀.history ticks = .ok (rounds, s)) :
    s.machine.mode .normal =
        .normal (UInt32.ofNat ((dealsOf (since .normal rounds)).countP Deal.isOpening)) ∧
      (dealsOf (since .normal rounds)).countP Deal.isOpening ≤ settings.openLimit.toNat := by
  induction ticks generalizing rounds s with
  | nil =>
    cases h
    refine ⟨?_, Nat.zero_le _⟩
    have hmode := (ofSettings_eq_ok h₀).1 .normal
    exact (Option.some.inj hmode).symm
  | cons x ticks ih =>
    obtain ⟨earlier, s₁, d', hearlier, htick, rfl⟩ := history_cons_eq_ok.mp h
    obtain ⟨hopens, hle⟩ := ih hearlier
    have hs := (steady_ofSettings h₀).history hearlier
    rw [normal_onTick hs.named htick hopens, since_cons]
    split
    · exact ⟨rfl, Nat.zero_le _⟩
    · have hlimit : (dealsOf (since .normal earlier)).countP Deal.isOpening < UInt32.size :=
        Nat.lt_of_le_of_lt hle settings.openLimit.toNat_lt
      have hcount := UInt32.toNat_ofNat_of_lt' hlimit
      have hkept := opens_onTick_le hs hopens
        (UInt32.le_iff_toNat_le.mpr (hcount.symm ▸ hle)) x.1 x.2
      rw [hcount] at hkept
      rw [dealsOf_cons, List.countP_append, Nat.add_comm, UInt32.ofNat_add]
      exact ⟨rfl, hkept⟩

/-- However a run goes, normal mode counts the orders that opened a side since the strategy last
turned to it, or was made, and there are never more than the limit allows. They are of those that the
desk accepted, which are all that the strategy does to a desk. -/
theorem opens_eq_and_le (h₀ : ofSettings settings = .ok s₀)
    (h : s₀.history ticks = .ok (rounds, s)) :
    (∃ opens : UInt32, s.machine.mode .normal = .normal opens ∧
      opens.toNat = (ordersOf (since .normal rounds)).countP (·.orderType.isOpening) ∧
      opens ≤ settings.openLimit) ∧
    ∀ (d : Desk) (tick : Tick) (s' : MavgStrategy) (d' : Desk), s.onTick d tick = .ok (s', d') →
      d.Accepts strategyName (ordersOf [s.round d tick s']) d' := by
  rw [countP_ordersOf h₀ h (sublist_since .normal rounds)]
  obtain ⟨hmode, hle⟩ := normal_history h₀ h
  have hcount := UInt32.toNat_ofNat_of_lt' (Nat.lt_of_le_of_lt hle settings.openLimit.toNat_lt)
  refine ⟨⟨_, hmode, hcount, ?_⟩, fun d tick s' d' ↦ accepts_round⟩
  rw [UInt32.le_iff_toNat_le, hcount]
  exact hle

/-- A desk with nothing held, where both lines of the litecoin bars rise and draw apart. -/
def risingDesk : Desk :=
  { Desk.ofTraders [⟨litecoin.exchange, .ofList [(litecoin.symbol, 10.0)]⟩] (.empty [.min5] 30) 3 with
    ledger := (Ledger.empty.setMoney
      ⟨litecoin.exchange, litecoin.symbol, 100.0, 100.0⟩).setPosition (Position.flat litecoin)
    bars :=
      { Bars.empty [.min5] 30 with
        series := Table.empty.insert (litecoin, .min5)
          { bars := .withCapacity 30
            graph := ((Graph.empty .min5 30).setLastBar 300
              |>.pushFast ⟨0, 20.0⟩ |>.pushFast ⟨300, 21.0⟩
              |>.pushSlow ⟨0, 19.0⟩ |>.pushSlow ⟨300, 19.5⟩
              |>.pushDiff ⟨0, 1.0⟩ |>.pushDiff ⟨300, 1.5⟩) } } }

/-- With a limit of one opening, the second of three ticks with a signal to buy sends an order and
the third does not. On the first the desk has no trader. -/
theorem opens_once_of_three :
    let silent : Desk := { risingDesk with traders := .empty }
    ∃ (s₀ s : MavgStrategy) (rounds : List Round),
      ofSettings { openLimit := 1 } = .ok s₀ ∧
      s₀.history [(risingDesk, tickAt litecoin 2000), (risingDesk, tickAt litecoin 1000),
        (silent, tickAt litecoin 0)] = .ok (rounds, s) ∧
      rounds.map (·.deals.length) = [0, 1, 0] ∧
      ∃ opens : UInt32, s.machine.mode .normal = .normal opens ∧
        opens.toNat = (ordersOf (since .normal rounds)).countP (·.orderType.isOpening) ∧
        opens ≤ 1 := by
  intro silent
  have hrun : ((ofSettings { openLimit := 1 }).toOption.any fun s₀ ↦
      (s₀.history [(risingDesk, tickAt litecoin 2000), (risingDesk, tickAt litecoin 1000),
        (silent, tickAt litecoin 0)]).toOption.any fun x ↦
          decide (x.1.map (·.deals.length) = [0, 1, 0])) = true := by
    decide +kernel
  obtain ⟨s₀, h₀, hrun⟩ := Except.any_toOption.mp hrun
  obtain ⟨⟨rounds, s⟩, h, hrun⟩ := Except.any_toOption.mp hrun
  exact ⟨s₀, s, rounds, h₀, h, of_decide_eq_true hrun, (opens_eq_and_le h₀ h).1⟩

end TradeDesk.MavgStrategy
