import TradeDesk.Proofs.Desk.Numbering
import TradeDesk.Proofs.Market.WordTimes
import TradeDesk.Proofs.Mavg.Rounds

/-!
# Times in words, in a run

The strategy takes distances of times too: it reads slopes over a number of bars before the newest,
and it rests for a while after it was shut down. Bars and ticks have their times from timestamps in
milliseconds, so all these distances fit into words, however many bars the slopes are measured over
and however long the rest is to be.
-/

namespace TradeDesk

namespace Mavg

/-! ### Reading and resting with checks -/

/-- The reading of the lines, with all durations checked. -/
def SignalReader.readInWords (r : SignalReader) (d : Desk) (key : Instrument) :
    Option (Option Reading) :=
  match d.bars.graph? key r.timeframe with
  | none => some none
  | some graph =>
    match graph.lastBar with
    | none => some none
    | some stop => do
      let span ← times? (.ofNat r.slopeBars.toNat) (.ofInt r.timeframe.seconds)
      let start ← minus? stop span
      let fastSlope ← graph.slopeInWords .fast start stop
      let slowSlope ← graph.slopeInWords .slow start stop
      let diffSlope ← graph.slopeInWords .diff start stop
      return do
        return {
          fastSlope := ← fastSlope
          slowSlope := ← slowSlope
          diffSlope := diffSlope.getD 0.0
          gap := ← graph.lastDiff?
          lastCrossing := graph.lastCrossing?.map (·.direction) }

/-- What is decided in shutdown mode, with the time since the shutdown checked. -/
def ModeState.decideShutdownInWords (since : Int64) (tick : Tick) (data : Data) :
    Option ModeName := do
  let rested ← minus? tick.seconds since
  return if data.settings.cooldownSecs ≤ rested then .normal else .shutdown

theorem SignalReader.readInWords_eq {d : Desk} (h : d.bars.Dated) (r : SignalReader)
    (key : Instrument) : r.readInWords d key = some (r.read? d key) := by
  unfold readInWords read?
  cases hg : d.bars.graph? key r.timeframe with
  | none => rfl
  | some graph =>
    have hgraph := h.graph hg
    cases hl : graph.lastBar with
    | none => simp [hl]
    | some stop =>
      have hspan := times?_eq (r.timeframe.fitsWord_span r.slopeBars)
      have hfits : FitsWord (stop.toInt -
          (Int64.ofNat r.slopeBars.toNat * Int64.ofInt r.timeframe.seconds).toInt) := by
        rw [r.timeframe.toInt_span]
        exact (hgraph.lastBar stop hl).fitsWord_sub r.timeframe r.slopeBars
      simp only [hl, hspan, minus?_eq hfits, hgraph.slopeInWords_eq, Option.bind_eq_bind, Option.bind_some,
        Option.pure_def]

theorem ModeState.decideShutdownInWords_eq {since : Int64} (h : Dated since) (tick : Tick)
    (data : Data) :
    decideShutdownInWords since tick data = some (decideShutdown since tick data) := by
  have hnear : Near since tick.seconds := h.near (dated_wholeSeconds tick.timestamp)
  rw [decideShutdownInWords, minus?_eq hnear]
  rfl

/-! ### The time of a shutdown -/

/-- The time of the last shutdown is one that timestamps can name. -/
def ModeState.Dated : ModeState → Prop
  | .normal _ | .defense => True
  | .shutdown since _ => TradeDesk.Dated since

/-- Every mode of a machine has the time of the last shutdown so. -/
def AllDated (m : StrategyMachine) : Prop := ∀ i, (m.mode i).Dated

variable {m m' : StrategyMachine} {d d' : Desk} {tick : Tick}

theorem ModeState.Dated.after {mode : ModeState} (h : mode.Dated) (deals : List Deal) :
    (mode.after deals).Dated := by
  cases mode with
  | normal opens => exact trivial
  | defense => exact trivial
  | shutdown since shutdowns => exact h

theorem ModeState.Dated.enter {data : Data} (h : TradeDesk.Dated data.clock) (mode : ModeState)
    (d : Desk) : (Mode.enter mode d data).1.Dated := by
  cases mode with
  | normal opens => exact trivial
  | defense => exact trivial
  | shutdown since shutdowns => exact h

theorem dated_blueprint (settings : MavgSettings) (i : ModeName) :
    ∃ mode, (blueprint settings).modes.get? i = some mode ∧ mode.Dated := by
  cases i with
  | normal => exact ⟨.normal 0, rfl, trivial⟩
  | defense => exact ⟨.defense, rfl, trivial⟩
  | shutdown => exact ⟨.shutdown 0 0, rfl, dated_zero⟩

/-- A step notes the time of the tick at most. -/
theorem Stepped.allDated (h : Stepped m d tick m' d') (hm : AllDated m)
    (hclock : Dated m.data.clock) : AllDated m' := by
  intro i
  by_cases hcurrent : m'.current = m.current
  · rw [(h.stays hcurrent).2 i]
    split
    · exact (hm m.current).after _
    · exact hm i
  · rw [(h.turns hcurrent).2 i]
    split
    · apply ModeState.Dated.enter
      rw [Deal.snd_carryAll]
      exact hclock
    · split
      · exact (hm m.current).after _
      · exact hm i

end Mavg

namespace MavgStrategy

open Mavg

variable {s s' : MavgStrategy} {settings : MavgSettings}

theorem allDated_onTick {d d' : Desk} {tick : Tick} (hs : AllDated s.machine)
    (h : s.onTick d tick = .ok (s', d')) : AllDated s'.machine := by
  rcases onTick_eq_ok h with ⟨-, rfl, -⟩ | ⟨-, -, hstep⟩
  · exact hs
  · exact hstep.allDated hs (dated_wholeSeconds tick.timestamp)

theorem allDated_ofSettings (h : ofSettings settings = .ok s) : AllDated s.machine := by
  intro i
  obtain ⟨mode, hget, hmode⟩ := dated_blueprint settings i
  rw [← Option.some.inj (hget.symm.trans ((ofSettings_eq_ok h).1 i))]
  exact hmode

theorem allDated_through {ticks : List (Desk × Tick)} (hs : AllDated s.machine)
    (h : s.through ticks = .ok s') : AllDated s'.machine :=
  holds_through (fun _ _ _ _ _ hs hfirst ↦ allDated_onTick hs hfirst) hs h

end MavgStrategy

/-! ### The bars of a desk -/

/-- Market data adds the samples of updates to the bars. -/
theorem Feed.dated_handle {d : Desk} (h : d.bars.Dated) (f : Feed) (e : Envelope) :
    (f.handle d e).2.2.bars.Dated := by
  unfold handle
  split
  · split
    · exact h
    · exact h
  · split
    · next u _ => exact h.add (dated_wholeSeconds u.timestamp) u.key u.timeframe
    · exact h
  · exact h
  · split
    · exact h
    · exact h
  · split
    · exact h
    · exact h
  · exact h

namespace Desk

/-- Whatever happens to a desk, all times in its bars remain such as timestamps can name. -/
theorem dated_act {d : Desk} (h : d.bars.Dated) (a : Act) : (d.act a).bars.Dated := by
  have hrequest : ∀ r, a.request? = some r → (d.act a).bars.Dated := by
    intro r ha
    cases ht : d.traders.get? r.1 with
    | none =>
      rw [(act_of_request?_of_none ha ht).2]
      exact h
    | some t =>
      rw [(act_of_request?_of_some ha ht).2]
      exact h
  cases a with
  | review strategy => exact h
  | deliver e =>
    by_cases he : e.isAnswer
    · rw [act_deliver_of_isAnswer d he]
      cases d.answer? e with
      | none => exact h
      | some answer =>
        obtain ⟨outbox, lastSerial, hd⟩ := d.settle_eq e.source e.reqSerial answer
        show (d.settle e.source e.reqSerial answer).bars.Dated
        rw [hd]
        exact h
    · cases ht : e.tick? with
      | none =>
        rw [act_deliver_of_not_isAnswer d (Bool.eq_false_iff.mpr he) ht]
        exact Feed.dated_handle h {} e
      | some tick =>
        rw [act_deliver_of_tick d ht]
        exact h
  | _ => exact hrequest _ rfl

theorem dated_run {d : Desk} (h : d.bars.Dated) (acts : List Act) : (d.run acts).2.bars.Dated := by
  induction acts with
  | nil => exact h
  | cons a earlier ih => exact dated_act ih a

end Desk

/-- On any desk whose bars came in envelopes, and for any strategy that has decided on any ticks,
every distance of times is a word: a sample of a bar is taken, the lines are read and the end of the
rest is decided with every distance checked as without the checks. This is so for every timestamp in
milliseconds, and for all settings. -/
theorem times_fit_words (traders : List Trader) (timeframes : List Timeframe) (capacity : Nat)
    (maxChecks : UInt32) (acts : List Act) {settings : MavgSettings} {s₀ s : MavgStrategy}
    {ticks : List (Desk × Tick)} (hstart : MavgStrategy.ofSettings settings = .ok s₀)
    (hrun : s₀.through ticks = .ok s) :
    let d := ((Desk.ofTraders traders (.empty timeframes capacity) maxChecks).run acts).2
    (∀ u : CandleUpdate, d.bars.addInWords u.key u.timeframe u.candle =
      some (d.bars.add u.key u.timeframe u.candle)) ∧
    (∀ (r : Mavg.SignalReader) (key : Instrument), r.readInWords d key = some (r.read? d key)) ∧
    ∀ i since shutdowns, s.machine.mode i = .shutdown since shutdowns → ∀ (tick : Tick) data,
      Mavg.ModeState.decideShutdownInWords since tick data =
        some (Mavg.ModeState.decideShutdown since tick data) := by
  intro d
  have hbars : d.bars.Dated := Desk.dated_run (Bars.dated_empty timeframes capacity) acts
  have hmodes := MavgStrategy.allDated_through (MavgStrategy.allDated_ofSettings hstart) hrun
  refine ⟨fun u ↦ hbars.addInWords_eq (dated_wholeSeconds u.timestamp) u.key u.timeframe,
    fun r key ↦ r.readInWords_eq hbars key, fun i since shutdowns hmode tick data ↦ ?_⟩
  have hsince : (s.machine.mode i).Dated := hmodes i
  rw [hmode] at hsince
  exact Mavg.ModeState.decideShutdownInWords_eq hsince tick data

open MavgStrategy (litecoin losingDesk tickAt)

/-- A daily bar at a time in milliseconds. -/
def dayAt (timestamp : UInt64) : CandleUpdate :=
  ⟨litecoin, .day1, timestamp, 20.0, 20.0, 20.0, 20.0, 0.0, 0.0⟩

/-- In the last second that a timestamp can name a bar comes and the strategy shuts down. A bar and
a tick of the first second come too early for both, by as much as can be. -/
theorem fit_words_of_lastSecond :
    let d := ((Desk.ofTraders [] (.empty [.day1] 30) 3).run
      [.deliver (.encode .candle 0 litecoin.exchange (dayAt 18446744073709551615))]).2
    let first := dayAt 0
    let reader : Mavg.SignalReader := ⟨.day1, 4294967295, ⟨0.0, 0.0, 0.0, 0.0⟩⟩
    ∃ s₀ s since shutdowns, MavgStrategy.ofSettings { lossLimitStep := 1 } = .ok s₀ ∧
      s₀.through [(losingDesk, tickAt litecoin 5000),
        (losingDesk, tickAt litecoin 18446744073709551615)] = .ok s ∧
      s.machine.mode .shutdown = .shutdown since shutdowns ∧ since.toInt = lastSecond ∧
      (d.bars.addInWords first.key first.timeframe first.candle).map Prod.fst = some .dropped ∧
      reader.readInWords d litecoin = some (reader.read? d litecoin) ∧
      Mavg.ModeState.decideShutdownInWords since (tickAt litecoin 0) s.machine.data =
        some .shutdown := by
  intro d first reader
  have hrun : ((MavgStrategy.ofSettings { lossLimitStep := 1 }).toOption.any fun s₀ ↦
      (s₀.through [(losingDesk, tickAt litecoin 5000),
        (losingDesk, tickAt litecoin 18446744073709551615)]).toOption.any fun s ↦
        decide (s.machine.mode .shutdown = .shutdown 18446744073709551 1) &&
        decide (Mavg.ModeState.decideShutdown 18446744073709551 (tickAt litecoin 0)
          s.machine.data = .shutdown)) = true := by
    decide +kernel
  have hdropped : (d.bars.add first.key first.timeframe first.candle).1 = .dropped := by
    decide +kernel
  obtain ⟨s₀, h₀, hrun⟩ := Except.any_toOption.mp hrun
  obtain ⟨s, hthrough, hrun⟩ := Except.any_toOption.mp hrun
  simp only [Bool.and_eq_true, decide_eq_true_eq] at hrun
  obtain ⟨hmode, hrests⟩ := hrun
  obtain ⟨hbars, hread, hdecide⟩ := times_fit_words [] [.day1] 30 3
    [.deliver (.encode .candle 0 litecoin.exchange (dayAt 18446744073709551615))] h₀ hthrough
  refine ⟨s₀, s, 18446744073709551, 1, h₀, hthrough, hmode, by decide, ?_, hread reader litecoin,
    ?_⟩
  · rw [hbars first, Option.map_some, hdropped]
  · rw [hdecide .shutdown _ _ hmode, hrests]

end TradeDesk
