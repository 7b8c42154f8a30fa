import TradeDesk.Mavg.Signal
import TradeDesk.Proofs.Market.Crossings
import TradeDesk.Proofs.Market.Eviction
import TradeDesk.Proofs.Market.GapFree

/-!
# How far back the signal looks

The slopes of a signal are measured over a number of bars, but are looked for by time. In a series
without gaps the two come to the same for every line, though the lines begin with different bars and
give up their oldest points when there is no more room. The time from which slopes are looked for must
be one that a word can say; where it is not, it wraps around to a time after the newest bar.
-/

namespace TradeDesk

namespace Graph

/-- How many places before its newest point the slope of a line over `k` bars begins: as many as there
are bars, or fewer where the line does not hold that many points. -/
def placesBack (g : Graph) (l : Line) (k : Nat) : Nat := min k ((g.line l).size - 1)

/-- The slope between points of different times, where the distance is a word. -/
theorem slope_eq (g : Graph) {head tail : TimePoint} {elapsed : Int}
    (helapsed : tail.ts.toInt - head.ts.toInt = elapsed) (hfits : FitsWord elapsed)
    (hne : elapsed ≠ 0) :
    g.slope head tail =
      (tail.value - head.value) / (Float.ofInt elapsed / Float.ofInt g.timeframe.seconds) := by
  subst helapsed
  have hword := toInt_sub_of_fitsWord hfits
  have hzero : tail.ts - head.ts ≠ 0 := by
    intro h
    rw [h, Int64.toInt_zero] at hword
    exact hne hword.symm
  rw [slope]
  simp only [if_neg hzero, hword]

end Graph

namespace BarSeries

variable {s : BarSeries} {tf : Timeframe} {capacity n : Nat} {stop : Int} {l : Line} {k : Nat}

/-- The slope of a line over the last `k` bars is that between its newest point and the one `k` places
before it, or its oldest where not that many are held: the difference of their values by the number of
bars between them. -/
theorem Regular.slopeIn?_of_enough (h : s.Regular tf capacity n stop) (hk : 1 ≤ k)
    (hsize : 2 ≤ (s.graph.line l).size) (hspan : FitsWord (k * tf.seconds)) :
    ∃ newest earlier, (s.graph.line l).fromEnd? 0 = some newest ∧
      (s.graph.line l).fromEnd? (s.graph.placesBack l k) = some earlier ∧
      newest.ts.toInt - earlier.ts.toInt = s.graph.placesBack l k * tf.seconds ∧
      s.graph.slopeIn? l (stop - k * tf.seconds) stop = some (s.graph.slope earlier newest) ∧
      s.graph.slope earlier newest = (newest.value - earlier.value) /
        (Float.ofInt (s.graph.placesBack l k * tf.seconds) / Float.ofInt tf.seconds) := by
  have hplaces : 1 ≤ s.graph.placesBack l k ∧ s.graph.placesBack l k ≤ k ∧
      s.graph.placesBack l k < (s.graph.line l).size := by
    rw [Graph.placesBack]
    omega
  obtain ⟨newest, hnewest⟩ := Ring.exists_of_lt_size (r := s.graph.line l) (n := 0) (by omega)
  obtain ⟨earlier, hearlier⟩ := Ring.exists_of_lt_size hplaces.2.2
  have hdistance : newest.ts.toInt - earlier.ts.toInt = s.graph.placesBack l k * tf.seconds := by
    have htail : newest.ts.toInt = _ := h.line l 0 newest hnewest
    have hhead : earlier.ts.toInt = _ := h.line l _ earlier hearlier
    rw [htail, hhead]
    omega
  have hpos := tf.seconds_pos
  have hlow : 1 * tf.seconds ≤ s.graph.placesBack l k * tf.seconds :=
    Int.mul_le_mul_of_nonneg_right (by omega) (by omega)
  have hhigh : s.graph.placesBack l k * tf.seconds ≤ k * tf.seconds :=
    Int.mul_le_mul_of_nonneg_right (by omega) (by omega)
  have hfits : FitsWord (s.graph.placesBack l k * tf.seconds) := by
    have hmax := (fitsWord_iff.mp hspan).2
    exact fitsWord_iff.mpr (by omega)
  refine ⟨newest, earlier, hnewest, hearlier, hdistance, ?_, ?_⟩
  · rw [Graph.slopeIn?, (h.line l).endsWithin?_eq tf.seconds_pos, if_pos ⟨hk, hsize⟩,
      show min k ((s.graph.line l).size - 1) = s.graph.placesBack l k from rfl, hearlier, hnewest]
    rfl
  · rw [s.graph.slope_eq hdistance hfits (by omega), h.timeframe_eq]

/-- Over no bars, or with fewer than two points, a line has no slope. -/
theorem Regular.slopeIn?_of_few (h : s.Regular tf capacity n stop)
    (hfew : ¬ (1 ≤ k ∧ 2 ≤ (s.graph.line l).size)) :
    s.graph.slopeIn? l (stop - k * tf.seconds) stop = none := by
  rw [Graph.slopeIn?, (h.line l).endsWithin?_eq tf.seconds_pos, if_neg hfew]
  rfl

end BarSeries

namespace Mavg

/-- The slope of a line in a reading. -/
def Reading.slope (r : Reading) : Line → Float
  | .fast => r.fastSlope
  | .slow => r.slowSlope
  | .diff => r.diffSlope

/-- A reading of lines over the last `k` bars. Every slope is that between the newest point of its
line and the point `k` places before it, or the oldest where not that many are held: as many bars lie
between them, and the slope is the difference of their values by that number. The gap is the newest
distance. -/
structure Reading.OverBars (reading : Reading) (g : Graph) (k : Nat) : Prop where
  slopes : ∀ l, ∃ newest earlier, (g.line l).fromEnd? 0 = some newest ∧
    (g.line l).fromEnd? (min k ((g.line l).size - 1)) = some earlier ∧
    newest.ts.toInt - earlier.ts.toInt =
      (min k ((g.line l).size - 1) : Nat) * g.timeframe.seconds ∧
    reading.slope l = g.slope earlier newest ∧
    reading.slope l = (newest.value - earlier.value) /
      (Float.ofInt ((min k ((g.line l).size - 1) : Nat) * g.timeframe.seconds) /
        Float.ofInt g.timeframe.seconds)
  gap : ∃ newest, g.diff.fromEnd? 0 = some newest ∧ reading.gap = newest.value

/-- The slope of a line in such a reading, from the two points that it is measured between. -/
theorem Reading.OverBars.slope_of_points {reading : Reading} {g : Graph} {k : Nat}
    (h : reading.OverBars g k) {l : Line} {newest earlier : TimePoint}
    (hnewest : (g.line l).fromEnd? 0 = some newest)
    (hearlier : (g.line l).fromEnd? (min k ((g.line l).size - 1)) = some earlier) :
    reading.slope l = (newest.value - earlier.value) /
      (Float.ofInt ((min k ((g.line l).size - 1) : Nat) * g.timeframe.seconds) /
        Float.ofInt g.timeframe.seconds) := by
  obtain ⟨newest', earlier', hnewest', hearlier', -, -, hslope⟩ := h.slopes l
  cases hnewest.symm.trans hnewest'
  cases hearlier.symm.trans hearlier'
  exact hslope

namespace SignalReader

variable {r : SignalReader} {d : Desk} {key : Instrument} {s : BarSeries} {capacity n : Nat}
  {stop : Int}

/-- What is read where the time of the newest bar is known, and the time from which the slopes are
looked for is a word. -/
private theorem read?_eq (hs : d.bars.get? key r.timeframe = some s)
    (h : s.Regular r.timeframe capacity n stop) (hn : n ≠ 0)
    (hstart : FitsWord (stop - r.slopeBars.toNat * r.timeframe.seconds)) :
    r.read? d key = do
      let start := stop - (r.slopeBars.toNat : Int) * r.timeframe.seconds
      let fastSlope ← s.graph.slopeIn? .fast start stop
      let slowSlope ← s.graph.slopeIn? .slow start stop
      let gap ← s.graph.lastDiff?
      return ⟨fastSlope, slowSlope, (s.graph.slopeIn? .diff start stop).getD 0.0, gap,
        s.graph.lastCrossing?.map (·.direction)⟩ := by
  obtain ⟨c, hends, hstop⟩ := h.newest hn
  have htime : c.timestamp.toInt = stop := hstop
  have hspan := r.timeframe.toInt_span r.slopeBars
  have hback : (c.timestamp - .ofNat r.slopeBars.toNat * .ofInt r.timeframe.seconds).toInt =
      stop - r.slopeBars.toNat * r.timeframe.seconds := by
    rw [toInt_sub_of_fitsWord, hspan, htime]
    rw [hspan, htime]
    exact hstart
  rw [read?, Bars.graph?, hs]
  simp only [Option.map_some, Option.bind_eq_bind, Option.bind_some, hends.lastBar_eq, hback, htime]

/-- With two points on the slow line there is a reading over one bar or more. -/
theorem read?_of_enough (hs : d.bars.get? key r.timeframe = some s)
    (h : s.Regular r.timeframe capacity n stop) (hcapacity : slowPeriod ≤ capacity)
    (hstart : FitsWord (stop - r.slopeBars.toNat * r.timeframe.seconds))
    (hn : slowPeriod < n) (hbars : 1 ≤ r.slopeBars.toNat) :
    ∃ reading, r.read? d key = some reading ∧ reading.OverBars s.graph r.slopeBars.toNat := by
  have hsize : ∀ l, 2 ≤ (s.graph.line l).size := by
    intro l
    have hl : l.period ≤ slowPeriod := by cases l <;> decide
    have htwo : 2 ≤ slowPeriod := by decide
    rw [h.size_line]
    omega
  have hspan : FitsWord (r.slopeBars.toNat * r.timeframe.seconds) := by
    obtain ⟨hlow, hhigh⟩ := r.timeframe.span_le r.slopeBars
    exact fitsWord_iff.mpr (by omega)
  have hslope (l : Line) := h.slopeIn?_of_enough (l := l) hbars (hsize l) hspan
  obtain ⟨fast, fast', hfast, hfast', hfastTime, hfastSlope, hfastValue⟩ := hslope .fast
  obtain ⟨slow, slow', hslow, hslow', hslowTime, hslowSlope, hslowValue⟩ := hslope .slow
  obtain ⟨diff, diff', hdiff, hdiff', hdiffTime, hdiffSlope, hdiffValue⟩ := hslope .diff
  have hgap : s.graph.lastDiff? = some diff.value := by
    show (s.graph.diff.fromEnd? 0).map (·.value) = some diff.value
    rw [show s.graph.diff.fromEnd? 0 = some diff from hdiff]
    rfl
  let reading : Reading :=
    ⟨s.graph.slope fast' fast, s.graph.slope slow' slow, s.graph.slope diff' diff, diff.value,
      s.graph.lastCrossing?.map (·.direction)⟩
  refine ⟨reading, ?_, ?_, ⟨diff, hdiff, rfl⟩⟩
  · rw [read?_eq hs h (by omega) hstart]
    simp only [hfastSlope, hslowSlope, hdiffSlope, hgap, Option.bind_eq_bind, Option.bind_some,
      Option.getD_some]
    rfl
  · intro l
    rw [h.timeframe_eq]
    cases l with
    | fast => exact ⟨fast, fast', hfast, hfast', hfastTime, rfl, hfastValue⟩
    | slow => exact ⟨slow, slow', hslow, hslow', hslowTime, rfl, hslowValue⟩
    | diff => exact ⟨diff, diff', hdiff, hdiff', hdiffTime, rfl, hdiffValue⟩

/-- Over no bars, or before the slow line has two points, there is none. -/
theorem read?_of_few (hs : d.bars.get? key r.timeframe = some s)
    (h : s.Regular r.timeframe capacity n stop)
    (hstart : FitsWord (stop - r.slopeBars.toNat * r.timeframe.seconds))
    (hfew : ¬ (slowPeriod < n ∧ 1 ≤ r.slopeBars.toNat)) : r.read? d key = none := by
  by_cases hn : n = 0
  · rw [read?, Bars.graph?, hs]
    simp only [Option.map_some, Option.bind_eq_bind, Option.bind_some, h.unopened hn, Option.bind_none]
  · have hslow : s.graph.slopeIn? .slow (stop - (r.slopeBars.toNat : Int) * r.timeframe.seconds) stop =
        none := by
      apply h.slopeIn?_of_few
      rw [h.size_line]
      show ¬ (1 ≤ r.slopeBars.toNat ∧ 2 ≤ min capacity (n + 1 - slowPeriod))
      omega
    rw [read?_eq hs h hn hstart]
    simp only [hslow, Option.bind_eq_bind, Option.bind_none, Option.bind_fun_none]

/-- Where every bar opens one timeframe after the one before it, and the other samples of a bar repeat
its time, there is a reading exactly when there are more bars than the slow line averages and slopes
are measured over one bar at least. Each slope is then that between the newest point of its line and
the point that many bars before, or the oldest where not that many points are held, and the gap is the
newest distance. How many points a line holds follows from the number of bars. The time that many bars
before the newest must be a word. -/
theorem read?_of_gapFree (r : SignalReader) {timeframes : List Timeframe} {capacity : Nat}
    {samples : List Sample} {d : Desk} {key : Instrument} {bars : List BarFeed}
    (hcapacity : slowPeriod ≤ capacity) (htf : r.timeframe ∈ timeframes)
    (hbars : BarFeed.GapFree r.timeframe bars)
    (hstart : ∀ b ∈ bars.getLast?,
      FitsWord (stamp b.opening - r.slopeBars.toNat * r.timeframe.seconds))
    (hsamples : (samples.filter (·.series = (key, r.timeframe))).map (·.bar) =
      bars.flatMap BarFeed.candles)
    (hd : d.bars = ((Bars.empty timeframes capacity).feed samples).2) :
    ((r.read? d key).isSome ↔ slowPeriod < bars.length ∧ 1 ≤ r.slopeBars.toNat) ∧
    ∀ reading, r.read? d key = some reading → ∃ g, d.bars.graph? key r.timeframe = some g ∧
      g.timeframe = r.timeframe ∧
      (∀ l, (g.line l).size = min capacity (bars.length + 1 - l.period)) ∧
      reading.OverBars g r.slopeBars.toNat := by
  have h := Bars.regular_of_feed hcapacity htf hbars hsamples
  rw [← hd, Bars.seriesOf] at h
  cases hs : d.bars.get? key r.timeframe with
  | none =>
    rw [show d.bars.series.get? (key, r.timeframe) = none from hs, Option.getD_none] at h
    have hnone : r.read? d key = none := by
      rw [read?, Bars.graph?, hs]
      rfl
    have hlength : bars.length = 0 := by
      have hsize : 0 = min capacity bars.length := h.size_bars
      have hpositive : 0 < slowPeriod := by decide
      omega
    rw [hnone, hlength]
    refine ⟨?_, fun reading hreading ↦ ?_⟩
    · simp
    · cases hreading
  | some s =>
    rw [show d.bars.series.get? (key, r.timeframe) = some s from hs, Option.getD_some] at h
    have hback : FitsWord (BarFeed.lastTime 0 bars - r.slopeBars.toNat * r.timeframe.seconds) := by
      rw [BarFeed.lastTime]
      cases hlast : bars.getLast? with
      | none => exact dated_zero.fitsWord_sub r.timeframe r.slopeBars
      | some b => exact hstart b hlast
    by_cases henough : slowPeriod < bars.length ∧ 1 ≤ r.slopeBars.toNat
    · obtain ⟨reading, hread, hover⟩ := read?_of_enough hs h hcapacity hback henough.1 henough.2
      refine ⟨⟨fun _ ↦ henough, fun _ ↦ by rw [hread]; rfl⟩, fun reading' hread' ↦ ?_⟩
      cases hread.symm.trans hread'
      exact ⟨s.graph, by rw [Bars.graph?, hs]; rfl, h.timeframe_eq, h.size_line, hover⟩
    · rw [read?_of_few hs h hback henough]
      refine ⟨⟨fun hsome ↦ absurd hsome (by simp), fun hfew ↦ absurd hfew henough⟩, ?_⟩
      intro reading hreading
      cases hreading

/-- Where the time that many bars before the newest is no word, it wraps around to a time after the
newest bar, and there is no reading. -/
theorem read?_of_wrapped (r : SignalReader) {d : Desk} {key : Instrument} {g : Graph}
    {stop : Int64} (hg : d.bars.graph? key r.timeframe = some g) (hstop : g.lastBar = some stop)
    (hstart : ¬ FitsWord (stop.toInt - r.slopeBars.toNat * r.timeframe.seconds)) :
    r.read? d key = none := by
  have hafter : stop.toInt <
      (stop - .ofNat r.slopeBars.toNat * .ofInt r.timeframe.seconds).toInt := by
    obtain ⟨hlow, hhigh⟩ := r.timeframe.span_le r.slopeBars
    have hstopLow := stop.le_toInt
    have hstopHigh := stop.toInt_lt
    rw [fitsWord_iff] at hstart
    rw [Int64.toInt_sub, r.timeframe.toInt_span, Int.bmod_def]
    split <;> omega
  have hfast : g.slopeIn? .fast
      (stop - .ofNat r.slopeBars.toNat * .ofInt r.timeframe.seconds).toInt stop.toInt = none := by
    rw [Graph.slopeIn?, Ring.endsWithin?, if_pos hafter]
    rfl
  rw [read?, hg]
  simp only [Option.bind_eq_bind, Option.bind_some, hstop, hfast, Option.bind_none]

/-- Minutes at rising prices, each with a second sample at its own time. -/
def risingMinutes (n : Nat) : List BarFeed :=
  (List.range n).map fun i =>
    ⟨(Bars.pricedAt i (Float.ofNat i)).bar, [(Bars.pricedAt i (Float.ofNat i + 0.5)).bar], fun c hc ↦ by
      rw [List.mem_singleton.mp hc]
      rfl⟩

/-- The samples of thirty-two such minutes. -/
def risingSamples : List Sample :=
  ((risingMinutes 32).flatMap BarFeed.candles).map (Sample.mk (Bars.pricedAt 0 0.0).key .min1)

private theorem bars_risingSamples :
    (risingSamples.filter (·.series = ((Bars.pricedAt 0 0.0).key, .min1))).map (·.bar) =
      (risingMinutes 32).flatMap BarFeed.candles := by
  have hown : ∀ x ∈ risingSamples,
      decide (x.series = ((Bars.pricedAt 0 0.0).key, Timeframe.min1)) = true := by
    intro x hx
    obtain ⟨c, -, rfl⟩ := List.mem_map.mp hx
    exact decide_eq_true rfl
  rw [List.filter_eq_self.mpr hown, risingSamples, List.map_map]
  exact List.map_id _

set_option maxRecDepth 10000 in
/-- The points between which the slopes over five bars are measured then. -/
private theorem points_risingSamples :
    (((BarArchive.empty [.min1]).feed risingSamples).2.series.get?
      ((Bars.pricedAt 0 0.0).key, .min1)).map (fun h ↦
        (h.fast.reverse[0]?, h.fast.reverse[5]?, h.slow.reverse[0]?, h.slow.reverse[2]?)) =
      some (some ⟨1860, 28.428571428571427⟩, some ⟨1560, 23.428571428571427⟩,
        some ⟨1860, 16.983333333333334⟩, some ⟨1740, 14.983333333333333⟩) := by
  rfl

/-- After thirty-two such minutes, of which thirty are held, a slope over five bars is that between
points five apart on the fast line, and on the slow line, which has three points, two apart: one per
bar, but for rounding. -/
theorem read?_of_risingMinutes :
    let r : SignalReader := ⟨.min1, 5, ⟨0.0, 0.0, 0.0, 0.0⟩⟩
    let key := (Bars.pricedAt 0 0.0).key
    let d := Desk.ofTraders [] ((Bars.empty [.min1] slowPeriod).feed risingSamples).2 3
    ∃ reading g, r.read? d key = some reading ∧ d.bars.graph? key .min1 = some g ∧
      g.fast.fromEnd? 0 = some ⟨1860, 28.428571428571427⟩ ∧
      g.fast.fromEnd? 5 = some ⟨1560, 23.428571428571427⟩ ∧ reading.fastSlope = 1.0 ∧
      g.slow.fromEnd? 0 = some ⟨1860, 16.983333333333334⟩ ∧
      g.slow.fromEnd? 2 = some ⟨1740, 14.983333333333333⟩ ∧
      reading.slowSlope = 1.0000000000000009 := by
  intro r key d
  have hgapFree : BarFeed.GapFree r.timeframe (risingMinutes 32) := by
    unfold BarFeed.GapFree
    decide +kernel
  have hstart : ∀ b ∈ (risingMinutes 32).getLast?,
      FitsWord (stamp b.opening - r.slopeBars.toNat * r.timeframe.seconds) := by
    decide +kernel
  have hbars (b : Bars) : (Desk.ofTraders [] b 3).bars = b := rfl
  have hd : d.bars = ((Bars.empty [.min1] slowPeriod).feed risingSamples).2 := hbars _
  obtain ⟨hsome, hreading⟩ := read?_of_gapFree r (Nat.le_refl slowPeriod) (List.mem_singleton_self _)
    hgapFree hstart bars_risingSamples hd
  obtain ⟨reading, hread⟩ := Option.isSome_iff_exists.mp (hsome.mpr (by decide))
  obtain ⟨g, hg, htimeframe, hsize, hover⟩ := hreading reading hread
  -- The points are those of the history, in which nothing is overwritten.
  obtain ⟨h, hh, hpoints⟩ := Option.map_eq_some_iff.mp points_risingSamples
  obtain ⟨s, hs, rfl⟩ := Option.map_eq_some_iff.mp hg
  have hholds : s.graph.Holds .min1 slowPeriod h := by
    rw [hd] at hs
    exact (Bars.holds_of_feed (Nat.le_refl slowPeriod) hs hh).graph
  simp only [Prod.mk.injEq] at hpoints
  have hfast := (hholds.fast.fromEnd? (n := 0) (by decide)).trans hpoints.1
  have hfast' := (hholds.fast.fromEnd? (n := 5) (by decide)).trans hpoints.2.1
  have hslow := (hholds.slow.fromEnd? (n := 0) (by decide)).trans hpoints.2.2.1
  have hslow' := (hholds.slow.fromEnd? (n := 2) (by decide)).trans hpoints.2.2.2
  refine ⟨reading, s.graph, hread, hg, hfast, hfast', ?_, hslow, hslow', ?_⟩
  · have hslope := hover.slope_of_points (l := .fast) hfast (by rw [hsize .fast]; exact hfast')
    rw [hsize .fast, htimeframe] at hslope
    exact hslope.trans (by decide +kernel)
  · have hslope := hover.slope_of_points (l := .slow) hslow (by rw [hsize .slow]; exact hslow')
    rw [hsize .slow, htimeframe] at hslope
    exact hslope.trans (by decide +kernel)

end SignalReader

end Mavg

end TradeDesk
