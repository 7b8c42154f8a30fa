import TradeDesk.Proofs.Market.Crossings

/-!
# The lines stay aligned

Whatever samples came, the points of the three lines that are equally far from the newest end belong
to one bar, so that the segments between which a crossing is looked for start at one time and end at
one time.
-/

namespace TradeDesk

/-- Where both lines have two points, the newest crossing is looked for between these. -/
theorem Graph.newestCrossing?_eq {g : Graph} {fastEnd fastStart slowEnd slowStart : TimePoint}
    (hfastEnd : g.fast.fromEnd? 0 = some fastEnd) (hfastStart : g.fast.fromEnd? 1 = some fastStart)
    (hslowEnd : g.slow.fromEnd? 0 = some slowEnd) (hslowStart : g.slow.fromEnd? 1 = some slowStart) :
    g.newestCrossing? = Crossing.intersect fastStart fastEnd slowStart slowEnd := by
  rw [newestCrossing?, hfastEnd, hfastStart, hslowEnd, hslowStart]
  rfl

namespace Bars

/-- After any samples every series knows the time of its newest bar, its slow line and its distances
are as long as each other, and as far as they go back, the points of the three lines that are equally
far from the newest end carry one time and the distance is that of the two others. Where there are two
points of both lines, the segments between which a crossing is looked for start at one time and end at
one time. A sample that opens a bar appends to each line for which there are enough bars a point of its
time: the mean close of the newest seven or thirty bars that are held then, and their distance. -/
theorem aligned_of_feed (timeframes : List Timeframe) (capacity : Nat) (samples : List Sample)
    (key : Instrument) (tf : Timeframe) :
    let b := ((empty timeframes capacity).feed samples).2
    (∀ s, b.get? key tf = some s →
      s.graph.lastBar = s.bars.last?.map (·.timestamp) ∧
      s.graph.diff.size = s.graph.slow.size ∧
      (∀ i < s.graph.slow.size, ∃ fast slow diff, s.graph.fast.fromEnd? i = some fast ∧
        s.graph.slow.fromEnd? i = some slow ∧ s.graph.diff.fromEnd? i = some diff ∧
        slow.ts = fast.ts ∧ diff.ts = fast.ts ∧ diff.value = (fast.value - slow.value).abs) ∧
      ∀ fastEnd fastStart slowEnd slowStart,
        s.graph.fast.fromEnd? 0 = some fastEnd → s.graph.fast.fromEnd? 1 = some fastStart →
        s.graph.slow.fromEnd? 0 = some slowEnd → s.graph.slow.fromEnd? 1 = some slowStart →
          s.graph.newestCrossing? = Crossing.intersect fastStart fastEnd slowStart slowEnd ∧
          fastStart.ts = slowStart.ts ∧ fastEnd.ts = slowEnd.ts) ∧
    ∀ (c : Candle) (s' : BarSeries), (b.add key tf c).1 = .appended →
      (b.add key tf c).2.get? key tf = some s' → ∀ l,
        s'.graph.line l =
          if l.period ≤ s'.bars.size then
            (((b.get? key tf).getD (.empty tf b.capacity)).graph.line l).push
              ⟨c.timestamp, s'.lineValue l⟩
          else ((b.get? key tf).getD (.empty tf b.capacity)).graph.line l := by
  intro b
  constructor
  · intro s hs
    have h : s.Aligned :=
      of_feed (fun tf ↦ BarSeries.aligned_empty tf capacity) (fun _ _ c h ↦ h.add c) timeframes
        samples hs
    refine ⟨h.lastBar_eq, h.size_eq, h.points, ?_⟩
    intro fastEnd fastStart slowEnd slowStart hfastEnd hfastStart hslowEnd hslowStart
    exact ⟨Graph.newestCrossing?_eq hfastEnd hfastStart hslowEnd hslowStart,
      h.ts_eq hfastStart hslowStart, h.ts_eq hfastEnd hslowEnd⟩
  · intro c s' happended hs' l
    rw [eq_append_of_appended happended hs']
    exact BarSeries.line_append _ c l

/-- Thirty-one bars at rising prices, of which thirty are held, and one more: the slow line has two
points, and they belong to the same bars as the newest two of the fast line. -/
theorem aligned_of_risingMinutes :
    let b := ((empty [.min1] slowPeriod).feed
      ((List.range 31).map fun i => pricedAt i (Float.ofNat i))).2
    let x := pricedAt 31 40.0
    ∃ s s', b.get? x.key .min1 = some s ∧ s.graph.slow.size = 2 ∧
      (b.add x.key .min1 x.bar).1 = .appended ∧ (b.add x.key .min1 x.bar).2.get? x.key .min1 = some s' ∧
      (∃ fast slow diff, s.graph.fast.fromEnd? 1 = some fast ∧ s.graph.slow.fromEnd? 1 = some slow ∧
        s.graph.diff.fromEnd? 1 = some diff ∧ slow.ts = fast.ts ∧ diff.ts = fast.ts ∧
        diff.value = (fast.value - slow.value).abs) ∧
      s'.graph.slow = s.graph.slow.push ⟨x.bar.timestamp, s'.mean slowPeriod⟩ := by
  intro b x
  have happended : (b.add x.key .min1 x.bar).1 = .appended := by decide +kernel
  obtain ⟨s, hs, hsize⟩ := Option.map_eq_some_iff.mp
    (show (b.get? x.key .min1).map (·.graph.slow.size) = some 2 by decide +kernel)
  obtain ⟨s', hs', hbars⟩ := Option.map_eq_some_iff.mp
    (show ((b.add x.key .min1 x.bar).2.get? x.key .min1).map (·.bars.size) = some 30 by
      decide +kernel)
  obtain ⟨haligned, happend⟩ := aligned_of_feed [.min1] slowPeriod
    ((List.range 31).map fun i => pricedAt i (Float.ofNat i)) x.key .min1
  have hslow := happend x.bar s' happended hs' .slow
  rw [hbars, hs] at hslow
  exact ⟨s, s', hs, hsize, happended, hs', (haligned s hs).2.2.1 1 (by omega), hslow⟩

end Bars

end TradeDesk
