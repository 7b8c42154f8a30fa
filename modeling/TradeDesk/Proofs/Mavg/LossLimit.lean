import TradeDesk.Proofs.Mavg.Counting

/-!
# The limit on losses

The limit is checked before the deals of a tick, and a tick may close both sides, so losses may pass
the limit by one. A shutdown raises the limit by a step, which must be made up by new losses before
the next one.
-/

namespace TradeDesk

namespace Mavg

variable {t : Tally} {deals : List Deal}

/-! ### Deals and the limit -/

/-- Deals have no part in the limit. -/
theorem limit_foldl_note (deals : List Deal) (t : Tally) :
    (deals.foldl Deal.note t).lossLimit = t.lossLimit ∧
      (deals.foldl Deal.note t).lossLimitStep = t.lossLimitStep := by
  induction deals generalizing t with
  | nil => exact ⟨rfl, rfl⟩
  | cons deal rest ih =>
    obtain ⟨hlimit, hstep⟩ := ih (deal.note t)
    have hnote : (deal.note t).lossLimit = t.lossLimit ∧
        (deal.note t).lossLimitStep = t.lossLimitStep := by
      rw [Deal.note_eq, Tally.count]
      split <;> exact ⟨rfl, rfl⟩
    exact ⟨hlimit.trans hnote.1, hstep.trans hnote.2⟩

/-- A deal raises a counter by no more than one. -/
theorem Counter.value_note_le (k : Counter) (t : Tally) (deal : Deal) :
    (k.value (deal.note t).totals).toNat ≤
      (k.value t.totals).toNat + if k.counts deal then 1 else 0 := by
  rw [Deal.note_eq, Tally.count]
  split
  · dsimp only
    rw [k.value_countIn, UInt32.toNat_add, UInt32.toNat_ofNat']
    exact Nat.le_trans (Nat.mod_le _ _) (Nat.add_le_add_left (Nat.mod_le _ _) _)
  · exact Nat.le_add_right _ _

/-- Deals raise a counter by no more than those that it counts. -/
theorem Counter.value_foldl_note_le (k : Counter) (deals : List Deal) (t : Tally) :
    (k.value (deals.foldl Deal.note t).totals).toNat ≤
      (k.value t.totals).toNat + deals.countP k.counts := by
  induction deals generalizing t with
  | nil => exact Nat.le_refl _
  | cons deal rest ih =>
    have hrest := ih (deal.note t)
    have hnote := k.value_note_le t deal
    rw [List.foldl_cons, List.countP_cons]
    omega

/-- How often the strategy shut down in rounds. -/
def shutdownsOf (rounds : List Round) : Nat := rounds.countP (·.enters .shutdown)

theorem shutdownsOf_cons (r : Round) (rounds : List Round) :
    shutdownsOf (r :: rounds) = shutdownsOf rounds + if r.enters .shutdown then 1 else 0 :=
  List.countP_cons

theorem shutdownsOf_le_cons (r : Round) (rounds : List Round) :
    shutdownsOf rounds ≤ shutdownsOf (r :: rounds) := by
  rw [shutdownsOf_cons]
  exact Nat.le_add_right _ _

/-- The losses of rounds since the strategy shut down last. -/
def newLosses (rounds : List Round) : Nat :=
  (dealsOf (since .shutdown rounds)).countP Counter.losses.counts

theorem newLosses_cons (r : Round) (rounds : List Round) :
    newLosses (r :: rounds) =
      if r.enters .shutdown then 0 else r.deals.countP Counter.losses.counts + newLosses rounds := by
  rw [newLosses, since_cons]
  split
  · rfl
  · rw [dealsOf_cons, List.countP_append]
    rfl

end Mavg

namespace MavgStrategy

open Mavg

variable {s₀ s s' : MavgStrategy} {settings : MavgSettings} {follows : List Instrument} {d d' : Desk}
  {tick : Tick} {ticks : List (Desk × Tick)} {rounds : List Round}

/-! ### One tick -/

/-- The strategy shuts down only when there are too many losses. -/
theorem limitReached_of_enters (hs : Named s.machine) (h : s.onTick d tick = .ok (s', d'))
    (henters : (s.round d tick s').enters .shutdown) : s.tally.limitReached = true := by
  obtain ⟨hrun, henter⟩ := of_decide_eq_true henters
  rcases onTick_eq_ok h with ⟨-, rfl, -⟩ | ⟨-, -, hstep⟩
  · exact absurd henter hrun
  · exact hstep.limitReached hs hrun henter

/-- Once there are too many losses, the strategy closes nothing any more. -/
theorem dealsOn_of_limitReached (hlimit : s.tally.limitReached = true) (d : Desk) (tick : Tick) :
    s.dealsOn d tick = [] := by
  refine List.eq_nil_iff_forall_not_mem.mpr fun deal hdeal ↦ ?_
  obtain ⟨-, hbelow, -⟩ := of_mem_dealsOn hdeal
  rw [hlimit] at hbelow
  cases hbelow

/-! ### Runs -/

/-- The limit is one step for the start and one for every shutdown. -/
structure Limited (settings : MavgSettings) (rounds : List Round) (s : MavgStrategy) : Prop where
  step_eq : s.tally.lossLimitStep = settings.lossLimitStep
  limit_eq : s.tally.lossLimit =
    settings.lossLimitStep * UInt32.ofNat (shutdownsOf rounds + 1)
  mode_eq : ∃ since, s.machine.mode .shutdown =
    .shutdown since (UInt32.ofNat (shutdownsOf rounds))

theorem Limited.onTick (hl : s.Limited settings rounds) (hs : Named s.machine)
    (h : s.onTick d tick = .ok (s', d')) : s'.Limited settings (s.round d tick s' :: rounds) := by
  obtain ⟨since, hmode⟩ := hl.mode_eq
  have htally := tally_onTick hs h
  have hshutdown := shutdown_onTick h hmode
  obtain ⟨hlimit, hstep⟩ := limit_foldl_note (s.dealsOn d tick) s.tally
  have hcount := shutdownsOf_cons (s.round d tick s') rounds
  split at htally
  · next henters =>
    rw [if_pos henters] at hcount hshutdown
    refine ⟨?_, ?_, tick.seconds, ?_⟩
    · rw [htally, Tally.raiseLimit, hstep, hl.step_eq]
    · rw [htally, Tally.raiseLimit, hlimit, hstep, hl.step_eq, hl.limit_eq, hcount,
        UInt32.ofNat_add (_ + 1), UInt32.mul_add]
      simp
    · rw [hshutdown, hcount, UInt32.ofNat_add]
      rfl
  · next hstays =>
    rw [if_neg hstays] at hcount hshutdown
    refine ⟨?_, ?_, since, ?_⟩
    · rw [htally, hstep, hl.step_eq]
    · rw [htally, hlimit, hl.limit_eq, hcount, Nat.add_zero]
    · rw [hshutdown, hcount, Nat.add_zero]

theorem limited_history (h₀ : ofSettings settings = .ok s₀)
    (h : s₀.history ticks = .ok (rounds, s)) : s.Limited settings rounds := by
  induction ticks generalizing rounds s with
  | nil =>
    cases h
    have hmode := (ofSettings_eq_ok h₀).1 .shutdown
    refine ⟨?_, ?_, 0, (Option.some.inj hmode).symm⟩
    · rw [tally_ofSettings h₀, Tally.start]
    · rw [tally_ofSettings h₀, Tally.start]
      simp [shutdownsOf]
  | cons x ticks ih =>
    obtain ⟨earlier, s₁, d', hearlier, htick, rfl⟩ := history_cons_eq_ok.mp h
    exact (ih hearlier).onTick ((steady_ofSettings h₀).history hearlier).named htick

/-- The limit that is a word now was one before. -/
theorem limit_fits_of_cons {r : Round}
    (hfits : settings.lossLimitStep.toNat * (shutdownsOf (r :: rounds) + 1) < UInt32.size) :
    settings.lossLimitStep.toNat * (shutdownsOf rounds + 1) < UInt32.size :=
  Nat.lt_of_le_of_lt (Nat.mul_le_mul_left _ (Nat.succ_le_succ (shutdownsOf_le_cons r rounds))) hfits

/-- As long as it is a word, the limit is a multiple of the step. -/
theorem Limited.toNat_limit (hl : s.Limited settings rounds)
    (hfits : settings.lossLimitStep.toNat * (shutdownsOf rounds + 1) < UInt32.size) :
    s.tally.lossLimit.toNat = settings.lossLimitStep.toNat * (shutdownsOf rounds + 1) := by
  rw [hl.limit_eq, ← UInt32.ofNat_toNat (x := settings.lossLimitStep), ← UInt32.ofNat_mul,
    UInt32.toNat_ofNat_of_lt' hfits, UInt32.ofNat_toNat]

/-- The losses pass the limit by one at most, and those of a step are new. -/
structure Paced (settings : MavgSettings) (rounds : List Round) (s : MavgStrategy) : Prop where
  losses_le : s.tally.totals.losses.toNat ≤ s.tally.lossLimit.toNat + 1
  step_le : s.tally.totals.losses.toNat + settings.lossLimitStep.toNat ≤
    s.tally.lossLimit.toNat + 1 + newLosses rounds

/-- There are no deals once the losses are at the limit, and before it at most two. -/
theorem losses_dealsOn_le (h : s.tally.totals.losses.toNat ≤ s.tally.lossLimit.toNat + 1) (d : Desk)
    (tick : Tick) : s.tally.totals.losses.toNat +
      (s.dealsOn d tick).countP Counter.losses.counts ≤ s.tally.lossLimit.toNat + 1 := by
  cases hlimit : s.tally.limitReached with
  | true =>
    rw [dealsOn_of_limitReached hlimit]
    exact h
  | false =>
    have hbelow := UInt32.lt_iff_toNat_lt.mp (UInt32.not_le.mp (of_decide_eq_false hlimit))
    have htwo : (s.dealsOn d tick).countP Counter.losses.counts ≤ 2 :=
      Nat.le_trans List.countP_le_length (s.length_dealsOn_le d tick)
    omega

theorem Paced.onTick (hp : s.Paced settings rounds) (hl : s.Limited settings rounds)
    (hs : Named s.machine) (h : s.onTick d tick = .ok (s', d'))
    (hfits : settings.lossLimitStep.toNat *
      (shutdownsOf (s.round d tick s' :: rounds) + 1) < UInt32.size) :
    s'.Paced settings (s.round d tick s' :: rounds) := by
  have hcount := shutdownsOf_cons (s.round d tick s') rounds
  have hlimit := hl.toNat_limit (limit_fits_of_cons hfits)
  have hlimit' := (hl.onTick hs h).toNat_limit hfits
  have htally := tally_onTick hs h
  split at htally
  · next henters =>
    rw [if_pos henters] at hcount
    have hnew : newLosses (s.round d tick s' :: rounds) = 0 := by
      rw [newLosses_cons, if_pos henters]
    have hlosses : s'.tally.totals.losses = s.tally.totals.losses := by
      rw [htally, dealsOn_of_limitReached (limitReached_of_enters hs h henters)]
      rfl
    rw [hcount, Nat.mul_add, Nat.mul_one, ← hlimit] at hlimit'
    have := hp.losses_le
    refine ⟨?_, ?_⟩
    · rw [hlosses]
      omega
    · rw [hlosses, hnew]
      omega
  · next hstays =>
    rw [if_neg hstays] at hcount
    have hnew : newLosses (s.round d tick s' :: rounds) =
        (s.dealsOn d tick).countP Counter.losses.counts + newLosses rounds := by
      rw [newLosses_cons, if_neg hstays]
      rfl
    have hlosses : s'.tally.totals.losses.toNat ≤
        s.tally.totals.losses.toNat + (s.dealsOn d tick).countP Counter.losses.counts := by
      rw [htally]
      exact Counter.losses.value_foldl_note_le (s.dealsOn d tick) s.tally
    rw [hcount, Nat.add_zero, ← hlimit] at hlimit'
    have := losses_dealsOn_le hp.losses_le d tick
    have := hp.step_le
    refine ⟨?_, ?_⟩
    · omega
    · omega

theorem paced_history (h₀ : ofSettings settings = .ok s₀)
    (h : s₀.history ticks = .ok (rounds, s))
    (hfits : settings.lossLimitStep.toNat * (shutdownsOf rounds + 1) < UInt32.size) :
    s.Paced settings rounds := by
  induction ticks generalizing rounds s with
  | nil =>
    cases h
    refine ⟨?_, ?_⟩
    · rw [tally_ofSettings h₀, Tally.start]
      exact Nat.zero_le _
    · rw [tally_ofSettings h₀, Tally.start, UInt32.toNat_zero]
      dsimp only
      omega
  | cons x ticks ih =>
    obtain ⟨earlier, s₁, d', hearlier, htick, rfl⟩ := history_cons_eq_ok.mp h
    exact (ih hearlier (limit_fits_of_cons hfits)).onTick (limited_history h₀ hearlier)
      ((steady_ofSettings h₀).history hearlier).named htick hfits

/-- A shutdown puts the limit above the losses, unless the step is too small. -/
theorem Paced.limitReached_eq_false {r : Round} (hp : s.Paced settings (r :: rounds))
    (henters : r.enters .shutdown = true) (hstep : 2 ≤ settings.lossLimitStep) :
    s.tally.limitReached = false := by
  have hnew : newLosses (r :: rounds) = 0 := by rw [newLosses_cons, if_pos henters]
  have hle := hp.step_le
  have htwo : 2 ≤ settings.lossLimitStep.toNat := UInt32.le_iff_toNat_le.mp hstep
  refine decide_eq_false (UInt32.not_le.mpr (UInt32.lt_iff_toNat_lt.mpr ?_))
  omega

/-- Too many losses are new ones up to a step, but for one. -/
theorem Paced.step_le_newLosses (hp : s.Paced settings rounds)
    (hlimit : s.tally.limitReached = true) :
    settings.lossLimitStep.toNat - 1 ≤ newLosses rounds := by
  have hreached := UInt32.le_iff_toNat_le.mp (of_decide_eq_true hlimit)
  have hle := hp.step_le
  omega

/-- However a run goes, as long as the limit is a word: the limit is a step for the start and for
every shutdown, the losses pass it by one at most, and with steps of two or more a shutdown puts the
limit above the losses. So none comes without that many new losses, but for one, since the last one
or the start. -/
theorem loss_limit_kept (h₀ : ofSettings settings = .ok s₀)
    (h : s₀.history ticks = .ok (rounds, s))
    (hfits : settings.lossLimitStep.toNat * (shutdownsOf rounds + 1) < UInt32.size) :
    (∃ since shutdowns, s.machine.mode .shutdown = .shutdown since shutdowns ∧
      shutdowns = UInt32.ofNat (shutdownsOf rounds) ∧
      s.tally.lossLimit.toNat = settings.lossLimitStep.toNat * (shutdowns.toNat + 1)) ∧
    s.tally.totals.losses.toNat ≤ s.tally.lossLimit.toNat + 1 ∧
    (2 ≤ settings.lossLimitStep → ∀ r earlier, rounds = r :: earlier → r.enters .shutdown = true →
      s.tally.limitReached = false ∧
        settings.lossLimitStep.toNat - 1 ≤ newLosses earlier) := by
  have hl := limited_history h₀ h
  have hp := paced_history h₀ h hfits
  obtain ⟨since, hmode⟩ := hl.mode_eq
  refine ⟨⟨since, _, hmode, rfl, ?_⟩, hp.losses_le, fun hstep r earlier hrounds henters ↦ ?_⟩
  · rw [hl.toNat_limit hfits]
    rcases Nat.eq_zero_or_pos settings.lossLimitStep.toNat with hzero | hpos
    · rw [hzero, Nat.zero_mul, Nat.zero_mul]
    · have hcount : shutdownsOf rounds < UInt32.size := by
        have := Nat.le_mul_of_pos_left (shutdownsOf rounds + 1) hpos
        omega
      rw [UInt32.toNat_ofNat_of_lt' hcount]
  · subst hrounds
    refine ⟨hp.limitReached_eq_false henters hstep, ?_⟩
    cases ticks with
    | nil => cases h
    | cons x ticks =>
      obtain ⟨earlier, s₁, d', hearlier, htick, hrounds⟩ := history_cons_eq_ok.mp h
      cases hrounds
      have hs₁ := (steady_ofSettings h₀).history hearlier
      exact (paced_history h₀ hearlier (limit_fits_of_cons hfits)).step_le_newLosses
        (limitReached_of_enters hs₁.named htick henters)

/-- A desk on which both sides have lost a fifth of their margin. -/
def ruinedDesk : Desk :=
  let lost : PositionSide :=
    { amount := 5.0, available := 5.0, floatProfit := -0.1, floatProfitRate := -0.2 }
  { losingDesk with
    ledger := losingDesk.ledger.setPosition
      { Position.flat litecoin with long := lost, short := lost } }

/-- With two losses to a step, a loss and then two on one tick pass the limit by one. After the
shutdown and the cool-down one more loss leads to the next shutdown. -/
theorem two_shutdowns_of_four_losses :
    ∃ (s₀ s : MavgStrategy) (r : Round) (earlier : List Round),
      ofSettings { lossLimitStep := 2 } = .ok s₀ ∧
      s₀.history [(losingDesk, tickAt litecoin 1205000), (losingDesk, tickAt litecoin 1204000),
        (losingDesk, tickAt litecoin 1203000), (losingDesk, tickAt litecoin 3000),
        (ruinedDesk, tickAt litecoin 2000), (losingDesk, tickAt litecoin 1000)] =
          .ok (r :: earlier, s) ∧
      r.enters .shutdown = true ∧ newLosses earlier = 1 ∧
      s.tally.totals.losses = 4 ∧ s.tally.limitReached = false ∧
      (2 : UInt32).toNat - 1 ≤ newLosses earlier ∧
      ∃ since shutdowns, s.machine.mode .shutdown = .shutdown since shutdowns ∧
        shutdowns = UInt32.ofNat (shutdownsOf (r :: earlier)) ∧
        s.tally.lossLimit.toNat = (2 : UInt32).toNat * (shutdowns.toNat + 1) := by
  have hrun : ((ofSettings { lossLimitStep := 2 }).toOption.any fun s₀ ↦
      (s₀.history [(losingDesk, tickAt litecoin 1205000), (losingDesk, tickAt litecoin 1204000),
        (losingDesk, tickAt litecoin 1203000), (losingDesk, tickAt litecoin 3000),
        (ruinedDesk, tickAt litecoin 2000), (losingDesk, tickAt litecoin 1000)]).toOption.any
          fun x ↦ match x.1 with
            | [] => false
            | r :: earlier => decide (r.enters .shutdown = true ∧ newLosses earlier = 1 ∧
                x.2.tally.totals.losses = 4 ∧ shutdownsOf (r :: earlier) = 2)) = true := by
    decide +kernel
  obtain ⟨s₀, h₀, hrun⟩ := Except.any_toOption.mp hrun
  obtain ⟨⟨rounds, s⟩, h, hrun⟩ := Except.any_toOption.mp hrun
  cases rounds with
  | nil => cases hrun
  | cons r earlier =>
    obtain ⟨henters, hnew, hlosses, hcount⟩ := of_decide_eq_true hrun
    have hfits : (2 : UInt32).toNat * (shutdownsOf (r :: earlier) + 1) < UInt32.size := by
      rw [hcount]
      decide
    obtain ⟨hlimit, -, hshutdown⟩ := loss_limit_kept h₀ h hfits
    obtain ⟨hbelow, hpaced⟩ := hshutdown (by decide) r earlier rfl henters
    exact ⟨s₀, s, r, earlier, h₀, h, henters, hnew, hlosses, hbelow, hpaced, hlimit⟩

end MavgStrategy

end TradeDesk
