import TradeDesk.Proofs.Market.Distances
import TradeDesk.Proofs.Mavg.Step

/-!
# Resting after losses

The tick on which the strategy shuts down places no order and raises the limit once. From then on it
rests, whatever the clock of the ticks does and whatever it finds on the desk: nothing is ordered and
nothing is counted. The first followed tick of which the cool-down has passed puts it back to normal.
-/

namespace TradeDesk

namespace Mavg

variable {d d' : Desk} {tick : Tick} {o : Outlook} {data : Data} {m m' : StrategyMachine}

/-! ### Modes keep their names -/

/-- Being initialized changes no mode and no data. -/
theorem initModes_eq (modes : Table ModeName ModeState) (data : Data) (ids : List ModeName) :
    (∀ i, (Blueprint.initModes modes data ids).1.get? i = modes.get? i) ∧
      (Blueprint.initModes modes data ids).2 = data := by
  induction ids generalizing modes with
  | nil => exact ⟨fun i ↦ rfl, rfl⟩
  | cons j rest ih =>
    unfold Blueprint.initModes
    split
    · exact ih modes
    · next mode hmode =>
      obtain ⟨hmodes, hdata⟩ := ih (modes.insert j mode)
      refine ⟨fun i ↦ (hmodes i).trans ?_, hdata⟩
      rw [Table.get?_insert]
      split
      · next hi => rw [hi, hmode]
      · rfl

/-- The modes of the strategy are registered under their names. -/
theorem get?_modes_blueprint (settings : MavgSettings) (i : ModeName) :
    ∃ mode, (blueprint settings).modes.get? i = some mode ∧ mode.name = i := by
  cases i with
  | normal => exact ⟨.normal 0, rfl, rfl⟩
  | defense => exact ⟨.defense, rfl, rfl⟩
  | shutdown => exact ⟨.shutdown 0 0, rfl, rfl⟩

theorem name_after (mode : ModeState) (deals : List Deal) : (mode.after deals).name = mode.name := by
  cases mode <;> rfl

theorem name_enter (mode : ModeState) (d : Desk) (data : Data) :
    (Mode.enter mode d data).1.name = mode.name := by
  cases mode <;> rfl

theorem eq_shutdown_of_name {mode : ModeState} (h : mode.name = .shutdown) :
    ∃ since shutdowns, mode = .shutdown since shutdowns := by
  cases mode with
  | normal opens => cases h
  | defense => cases h
  | shutdown since shutdowns => exact ⟨since, shutdowns, rfl⟩

theorem settings_enter (mode : ModeState) (d : Desk) (data : Data) :
    (Mode.enter mode d data).2.2.settings = data.settings := by
  cases mode <;> rfl

/-- Only a shutdown changes anything when it is entered. -/
theorem data_enter {mode : ModeState} (h : mode.name ≠ .shutdown) (d : Desk) (data : Data) :
    (Mode.enter mode d data).2.2 = data := by
  cases mode with
  | normal opens => rfl
  | defense => rfl
  | shutdown since shutdowns => exact absurd rfl h

/-- Every mode goes by the name that it is registered under. -/
def Named (m : StrategyMachine) : Prop := ∀ i, (m.mode i).name = i

namespace Stepped

theorem named (h : Stepped m d tick m' d') (hm : Named m) : Named m' := by
  intro i
  by_cases hcurrent : m'.current = m.current
  · rw [(h.stays hcurrent).2 i]
    split
    · next hi => rw [name_after, hm, hi]
    · exact hm i
  · rw [(h.turns hcurrent).2 i]
    split
    · next hi => rw [name_enter, hm, hi]
    · split
      · next hi => rw [name_after, hm, hi]
      · exact hm i

theorem settings_eq (h : Stepped m d tick m' d') : m'.data.settings = m.data.settings := by
  by_cases hcurrent : m'.current = m.current
  · rw [(h.stays hcurrent).1, Deal.settings_carryAll]
  · rw [(h.turns hcurrent).1, settings_enter, Deal.settings_carryAll]

end Stepped

/-! ### Shutting down -/

theorem target_ofSides {target target' : ModeName} {x y : Except Fault (Option Deal)}
    (h : (Decision.ofSides target x y).target = .ok target') : target' = target := by
  cases x with
  | error f => cases h
  | ok long =>
    cases y with
    | error f => cases h
    | ok short =>
      cases h
      rfl

/-- A mode turns to shutdown only when there are too many losses. -/
theorem limitReached_of_target_shutdown {mode : ModeState} (hmode : mode.name ≠ .shutdown)
    (h : (mode.decision d tick o data).target = .ok .shutdown) :
    data.tally.limitReached = true := by
  cases mode with
  | normal opens =>
    simp only [ModeState.decision, ModeState.normalDecision] at h
    split at h
    · next hlimit => exact hlimit
    · split at h
      · cases h
      · split at h
        · cases h
        · cases target_ofSides h
  | defense =>
    simp only [ModeState.decision, ModeState.defenseDecision] at h
    split at h
    · next hlimit => exact hlimit
    · split at h
      · cases h
      · have htarget := target_ofSides h
        split at htarget <;> cases htarget
  | shutdown since shutdowns => exact absurd rfl hmode

/-- A mode wants nothing once there are too many losses. -/
theorem deals_of_limitReached (mode : ModeState) (hlimit : data.tally.limitReached = true) :
    (mode.decision d tick o data).deals = [] := by
  cases mode with
  | normal opens => rw [ModeState.decision, ModeState.normalDecision, if_pos hlimit]
  | defense => rw [ModeState.decision, ModeState.defenseDecision, if_pos hlimit]
  | shutdown since shutdowns => rfl

/-- The time since a shutdown does not wrap around. -/
theorem ModeState.decideShutdown_eq {since : Int64} (h : Dated since) (tick : Tick) (data : Data) :
    decideShutdown since tick data =
      if data.settings.cooldownSecs.toInt ≤ tick.seconds.toInt - since.toInt then .normal
      else .shutdown := by
  have hrested : (tick.seconds - since).toInt = tick.seconds.toInt - since.toInt :=
    toInt_sub_of_fitsWord (h.near (dated_wholeSeconds tick.timestamp))
  simp only [decideShutdown, Int64.le_iff_toInt_le, hrested]

theorem decided_of_shutdown {since : Int64} {shutdowns : UInt32} (hcurrent : m.current = .shutdown)
    (hbefore : m.mode .shutdown = .shutdown since shutdowns) (d : Desk) (tick : Tick) :
    decided m d tick = ⟨[], .ok (ModeState.decideShutdown since tick m.data)⟩ := by
  rw [decided, hcurrent, hbefore]
  rfl

/-- The machine shuts down only when there are too many losses. -/
theorem Stepped.limitReached (h : Stepped m d tick m' d') (hnamed : Named m)
    (hrun : m.current ≠ .shutdown) (henter : m'.current = .shutdown) :
    m.data.tally.limitReached = true := by
  apply limitReached_of_target_shutdown
  · rw [hnamed m.current]
    exact hrun
  · rw [← henter]
    exact h.target_eq

/-- The tick on which the machine shuts down leaves the desk as it is and raises the limit; the
shutdown notes its time. -/
theorem Stepped.to_shutdown (h : Stepped m d tick m' d') (hnamed : Named m)
    (hrun : m.current ≠ .shutdown) (henter : m'.current = .shutdown) :
    d' = d ∧ m'.data.tally = m.data.tally.raiseLimit ∧
      ∃ shutdowns, m'.mode .shutdown = .shutdown m.data.clock shutdowns := by
  have hdeals : (decided m d tick).deals = [] :=
    deals_of_limitReached (m.mode m.current) (h.limitReached hnamed hrun henter)
  obtain ⟨hdata, hmode⟩ := h.turns fun heq ↦ hrun (heq.symm.trans henter)
  obtain ⟨since, shutdowns, hbefore⟩ := eq_shutdown_of_name (hnamed .shutdown)
  have hdesk := h.desk_eq
  rw [hdeals] at hdesk
  rw [hdeals, henter, hbefore] at hdata hmode
  refine ⟨hdesk, ?_, shutdowns + 1, ?_⟩
  · rw [hdata]
    rfl
  · rw [hmode, if_pos rfl]
    rfl

/-- In shutdown a tick leaves desk and tally as they are, and the mode, unless the cool-down has
passed. -/
theorem Stepped.of_shutdown {since : Int64} {shutdowns : UInt32} (h : Stepped m d tick m' d')
    (hnamed : Named m) (hcurrent : m.current = .shutdown)
    (hbefore : m.mode .shutdown = .shutdown since shutdowns) :
    d' = d ∧ m'.data.tally = m.data.tally ∧
      m'.current = ModeState.decideShutdown since tick m.data ∧
      (m'.current = .shutdown → m'.mode .shutdown = .shutdown since shutdowns) := by
  have hdecided := decided_of_shutdown hcurrent hbefore d tick
  have hdesk := h.desk_eq
  have htarget := h.target_eq
  rw [hdecided] at hdesk htarget
  refine ⟨hdesk, ?_, (Except.ok.inj htarget).symm, fun hstay ↦ ?_⟩
  · by_cases hstay : m'.current = m.current
    · rw [(h.stays hstay).1, hdecided]
      rfl
    · have hname : (m.mode m'.current).name ≠ .shutdown := by
        rw [hnamed, ← hcurrent]
        exact hstay
      rw [(h.turns hstay).1, data_enter hname, hdecided]
      rfl
  · have hmode := (h.stays (hstay.trans hcurrent.symm)).2 .shutdown
    rw [hcurrent, if_pos rfl, hbefore, hdecided] at hmode
    exact hmode

end Mavg

namespace MavgStrategy

open Mavg

variable {s s' : MavgStrategy} {settings : MavgSettings} {follows : List Instrument}
  {d d' : Desk} {tick : Tick}

/-! ### Runs -/

/-- The strategy after ticks, each of which may find the desk in any state. -/
def through (s : MavgStrategy) : List (Desk × Tick) → Except Fault MavgStrategy
  | [] => .ok s
  | x :: rest => do
    let (s, _) ← s.onTick x.1 x.2
    s.through rest

/-- What every tick keeps holds throughout. -/
theorem holds_through {P : MavgStrategy → Prop}
    (hstep : ∀ s s' d d' tick, P s → s.onTick d tick = .ok (s', d') → P s') {s s' : MavgStrategy}
    {ticks : List (Desk × Tick)} (hs : P s) (h : s.through ticks = .ok s') : P s' := by
  induction ticks generalizing s with
  | nil =>
    cases h
    exact hs
  | cons x rest ih =>
    obtain ⟨⟨s₁, d₁⟩, hfirst, h⟩ := Except.bind_eq_ok.mp h
    exact ih (hstep s s₁ x.1 d₁ x.2 hs hfirst) h

/-- What no tick changes: the names of the modes, the settings and the instruments followed. -/
structure Steady (settings : MavgSettings) (follows : List Instrument) (s : MavgStrategy) :
    Prop where
  named : Named s.machine
  settings_eq : s.machine.data.settings = settings
  follows_eq : s.follows = follows

theorem Steady.onTick (hs : s.Steady settings follows) (h : s.onTick d tick = .ok (s', d')) :
    s'.Steady settings follows := by
  rcases onTick_eq_ok h with ⟨-, rfl, -⟩ | ⟨-, hfollows, hstep⟩
  · exact hs
  · exact ⟨hstep.named hs.named, hstep.settings_eq.trans hs.settings_eq,
      hfollows.trans hs.follows_eq⟩

theorem Steady.through {ticks : List (Desk × Tick)} (hs : s.Steady settings follows)
    (h : s.through ticks = .ok s') : s'.Steady settings follows :=
  holds_through (fun _ _ _ _ _ hs hfirst ↦ Steady.onTick hs hfirst) hs h

/-- The strategy that settings describe starts with the modes registered and with nothing counted,
and it follows every pair of a symbol and a contract. -/
theorem ofSettings_eq_ok (h : ofSettings settings = .ok s) :
    (∀ i, (blueprint settings).modes.get? i = some (s.machine.mode i)) ∧
      s.machine.data = .start settings ∧
      s.follows = settings.symbols.flatMap fun symbol ↦
        settings.contracts.map fun contract ↦ ⟨settings.exchange, symbol, contract⟩ := by
  obtain ⟨machine, hbuild, h⟩ := Except.bind_eq_ok.mp h
  cases h
  obtain ⟨hmodes, hdata, -⟩ := Blueprint.build_eq_ok hbuild
  have hinit := initModes_eq (blueprint settings).modes (.start settings)
    (blueprint settings).modes.keys
  refine ⟨fun i ↦ ?_, hdata.trans hinit.2, rfl⟩
  rw [Machine.mode, Option.some_get, hmodes, hinit.1]

/-- The strategy that settings describe has counted nothing yet. -/
theorem tally_ofSettings (h : ofSettings settings = .ok s) :
    s.tally = .start settings.symbols settings.lossLimitStep :=
  congrArg Data.tally (ofSettings_eq_ok h).2.1

/-- The strategy that settings describe is steady. -/
theorem steady_ofSettings (h : ofSettings settings = .ok s) : s.Steady settings s.follows := by
  obtain ⟨hmodes, hdata, -⟩ := ofSettings_eq_ok h
  refine ⟨fun i ↦ ?_, congrArg Data.settings hdata, rfl⟩
  obtain ⟨mode, hget, hname⟩ := get?_modes_blueprint settings i
  rw [Option.some.inj ((hmodes i).symm.trans hget), hname]

/-! ### Resting -/

/-- The strategy has been shut down since the time of some tick, and its tally stands. -/
structure Resting (since : Int64) (tally : Tally) (s : MavgStrategy) : Prop where
  dated : Dated since
  current : s.machine.current = .shutdown
  mode : ∃ shutdowns, s.machine.mode .shutdown = .shutdown since shutdowns
  tally_eq : s.tally = tally

/-- On the tick on which it shuts down, the strategy orders nothing and raises its limit once. -/
theorem resting_of_onTick (hs : Named s.machine) (hrun : s.machine.current ≠ .shutdown)
    (h : s.onTick d tick = .ok (s', d')) (henter : s'.machine.current = .shutdown) :
    d' = d ∧ s'.Resting tick.seconds s.tally.raiseLimit := by
  rcases onTick_eq_ok h with ⟨-, rfl, -⟩ | ⟨-, -, hstep⟩
  · exact absurd henter hrun
  · obtain ⟨hdesk, htally, hmode⟩ := hstep.to_shutdown hs hrun henter
    exact ⟨hdesk, dated_wholeSeconds tick.timestamp, henter, hmode, htally⟩

/-- A resting strategy decides every tick without an order, and without a change to its tally; it
rests on until the cool-down has passed on a tick that it follows. -/
theorem Resting.onTick {since : Int64} {tally : Tally} (h : s.Resting since tally)
    (hs : s.Steady settings follows) (d : Desk) (tick : Tick) :
    ∃ s', s.onTick d tick = .ok (s', d) ∧ s'.tally = tally ∧
      if follows.contains tick.key ∧
          settings.cooldownSecs.toInt ≤ tick.seconds.toInt - since.toInt then
        s'.machine.current = .normal
      else s'.Resting since tally := by
  obtain ⟨shutdowns, hmode⟩ := h.mode
  have hdecided : decided (s.clocked tick) d tick = _ := decided_of_shutdown h.current hmode d tick
  have hsettings : (s.clocked tick).data.settings = settings := hs.settings_eq
  cases hr : s.onTick d tick with
  | error f =>
    have herror := target_of_onTick_error hr
    rw [hdecided] at herror
    cases herror
  | ok r =>
    obtain ⟨s', d'⟩ := r
    rw [← hs.follows_eq]
    rcases onTick_eq_ok hr with ⟨hother, rfl, rfl⟩ | ⟨hfollowed, -, hstep⟩
    · refine ⟨s', rfl, h.tally_eq, ?_⟩
      rw [hother, if_neg fun hover ↦ Bool.false_ne_true hover.1]
      exact h
    · obtain ⟨rfl, htally, htarget, hstay⟩ := hstep.of_shutdown hs.named h.current hmode
      have htally' : s'.tally = tally := htally.trans h.tally_eq
      rw [ModeState.decideShutdown_eq h.dated, hsettings] at htarget
      refine ⟨s', rfl, htally', ?_⟩
      rw [hfollowed]
      simp only [true_and]
      split at htarget
      · next hover =>
        rw [if_pos hover]
        exact htarget
      · next hover =>
        rw [if_neg hover]
        exact ⟨h.dated, htarget, ⟨shutdowns, hstay htarget⟩, htally'⟩

/-- A resting strategy rests on over ticks before which the cool-down has not passed. -/
theorem Resting.through {since : Int64} {tally : Tally} {ticks : List (Desk × Tick)}
    (h : s.Resting since tally) (hs : s.Steady settings follows)
    (hticks : ∀ x ∈ ticks, follows.contains x.2.key →
      x.2.seconds.toInt - since.toInt < settings.cooldownSecs.toInt) :
    ∃ s', s.through ticks = .ok s' ∧ s'.Resting since tally := by
  induction ticks generalizing s with
  | nil => exact ⟨s, rfl, h⟩
  | cons x rest ih =>
    obtain ⟨s₁, hfirst, -, hrests⟩ := h.onTick hs x.1 x.2
    have hearly : ¬ (follows.contains x.2.key = true ∧
        settings.cooldownSecs.toInt ≤ x.2.seconds.toInt - since.toInt) := by
      rintro ⟨hfollowed, hover⟩
      exact Int.not_le.mpr (hticks x List.mem_cons_self hfollowed) hover
    rw [if_neg hearly] at hrests
    obtain ⟨s', hrest, hrests'⟩ := ih hrests (hs.onTick hfirst) fun y hy ↦
      hticks y (List.mem_cons_of_mem x hy)
    refine ⟨s', ?_, hrests'⟩
    rw [MavgStrategy.through, hfirst]
    exact hrest

/-- Once the strategy shuts down, on a tick without an order on which nothing changes but that the
limit is raised, it rests over all ticks before which the cool-down has not passed: it decides every
one of them without an order and without a change to its tally. Rest ends with the first followed
tick of which the cool-down has passed, on which nothing is ordered or counted either. -/
theorem rests_until_cooldown {s₀ s s' : MavgStrategy} {before : List (Desk × Tick)}
    (h₀ : ofSettings settings = .ok s₀) (hbefore : s₀.through before = .ok s)
    (hrun : s.machine.current ≠ .shutdown) (htick : s.onTick d tick = .ok (s', d'))
    (henter : s'.machine.current = .shutdown) :
    d' = d ∧ s'.tally = s.tally.raiseLimit ∧
      ∀ after : List (Desk × Tick),
        (∀ x ∈ after, s₀.follows.contains x.2.key →
          x.2.seconds.toInt - tick.seconds.toInt < settings.cooldownSecs.toInt) →
        ∃ s₁, s'.through after = .ok s₁ ∧ s₁.machine.current = .shutdown ∧ s₁.tally = s'.tally ∧
          ∀ (d₁ : Desk) (tick₁ : Tick), ∃ s₂, s₁.onTick d₁ tick₁ = .ok (s₂, d₁) ∧
            s₂.tally = s'.tally ∧
            s₂.machine.current =
              if s₀.follows.contains tick₁.key ∧
                settings.cooldownSecs.toInt ≤ tick₁.seconds.toInt - tick.seconds.toInt then .normal
              else .shutdown := by
  have hs := (steady_ofSettings h₀).through hbefore
  have hs' := hs.onTick htick
  obtain ⟨hdesk, hrests⟩ := resting_of_onTick hs.named hrun htick henter
  refine ⟨hdesk, hrests.tally_eq, fun after hafter ↦ ?_⟩
  obtain ⟨s₁, hthrough, hrests₁⟩ := hrests.through hs' hafter
  refine ⟨s₁, hthrough, hrests₁.current, hrests₁.tally_eq.trans hrests.tally_eq.symm,
    fun d₁ tick₁ ↦ ?_⟩
  obtain ⟨s₂, hnext, htally, hcurrent⟩ := hrests₁.onTick (hs'.through hthrough) d₁ tick₁
  refine ⟨s₂, hnext, htally.trans hrests.tally_eq.symm, ?_⟩
  split at hcurrent
  · next hover => rw [hcurrent, if_pos hover]
  · next hover => rw [hcurrent.current, if_neg hover]

/-- A followed instrument. -/
def litecoin : Instrument := ⟨"okex", "ltc_usd", "this_week"⟩

/-- A desk with a side that has lost a fifth of its margin. -/
def losingDesk : Desk :=
  { Desk.ofTraders [⟨litecoin.exchange, .empty⟩] (.empty [.min5] 30) 3 with
    ledger := (Ledger.empty.setMoney ⟨litecoin.exchange, litecoin.symbol, 10.0, 10.0⟩).setPosition
      { Position.flat litecoin with
        long := { amount := 5.0, available := 5.0, floatProfit := -0.1, floatProfitRate := -0.2 } } }

/-- A tick at a time in milliseconds. -/
def tickAt (key : Instrument) (timestamp : UInt64) : Tick :=
  ⟨key, timestamp, 0.0, 0.0, 0.0, 0.0, 0.0, 0.0, 20.0, 0.0, 0.0, 0.0, 0.0⟩

/-- With one loss to a limit the strategy closes the losing side and shuts down on the next tick, at
9000 seconds. It rests over a tick with an earlier time and one that it does not follow, until 1200
seconds have passed. -/
theorem rests_after_loss :
    let quarterly : Instrument := ⟨"okex", "ltc_usd", "quarter"⟩
    ∃ s₀ s s' s₁ s₂ : MavgStrategy,
      ofSettings { lossLimitStep := 1 } = .ok s₀ ∧
      s₀.through [(losingDesk, tickAt litecoin 5000)] = .ok s ∧
      s.machine.current ≠ .shutdown ∧
      s.onTick losingDesk (tickAt litecoin 9000000) = .ok (s', losingDesk) ∧
      s'.machine.current = .shutdown ∧ s'.tally = s.tally.raiseLimit ∧
      s'.through [(losingDesk, tickAt litecoin 1000), (losingDesk, tickAt quarterly 10300000)] =
        .ok s₁ ∧
      s₁.machine.current = .shutdown ∧
      s₁.onTick losingDesk (tickAt litecoin 10200000) = .ok (s₂, losingDesk) ∧
      s₂.machine.current = .normal ∧ s₂.tally = s'.tally := by
  intro quarterly
  have hrun : ((ofSettings { lossLimitStep := 1 }).toOption.any fun s₀ ↦
      s₀.follows.contains litecoin && !s₀.follows.contains quarterly &&
      (s₀.through [(losingDesk, tickAt litecoin 5000)]).toOption.any fun s ↦
        decide (s.machine.current ≠ .shutdown) &&
        (s.onTick losingDesk (tickAt litecoin 9000000)).toOption.any fun x ↦
          decide (x.1.machine.current = .shutdown)) = true := by
    decide +kernel
  obtain ⟨s₀, h₀, hrun⟩ := Except.any_toOption.mp hrun
  simp only [Bool.and_eq_true, Bool.not_eq_true'] at hrun
  obtain ⟨⟨hfollowed, hother⟩, hrun⟩ := hrun
  obtain ⟨s, hbefore, hrun⟩ := Except.any_toOption.mp hrun
  simp only [Bool.and_eq_true, decide_eq_true_eq] at hrun
  obtain ⟨hnormal, hrun⟩ := hrun
  obtain ⟨⟨s', d'⟩, htick, hrun⟩ := Except.any_toOption.mp hrun
  obtain ⟨hdesk, htally, hrests⟩ := rests_until_cooldown h₀ hbefore hnormal htick
    (of_decide_eq_true hrun)
  obtain ⟨s₁, hthrough, hcurrent, -, hnext⟩ := hrests
    [(losingDesk, tickAt litecoin 1000), (losingDesk, tickAt quarterly 10300000)] fun x hx hx' ↦ by
      simp only [List.mem_cons, List.not_mem_nil, or_false] at hx
      rcases hx with rfl | rfl
      · decide
      · exact absurd (hother.symm.trans hx') Bool.false_ne_true
  obtain ⟨s₂, hlast, htally₂, hback⟩ := hnext losingDesk (tickAt litecoin 10200000)
  have hover : s₀.follows.contains (tickAt litecoin 10200000).key ∧
      (1200 : Int64).toInt ≤ (tickAt litecoin 10200000).seconds.toInt -
        (tickAt litecoin 9000000).seconds.toInt := ⟨hfollowed, by decide⟩
  rw [hdesk] at htick
  exact ⟨s₀, s, s', s₁, s₂, h₀, hbefore, hnormal, htick, of_decide_eq_true hrun, htally, hthrough,
    hcurrent, hlast, hback.trans (if_pos hover), htally₂⟩

end MavgStrategy

end TradeDesk
