import TradeDesk.Proofs.Market.Lines

/-!
# Which way the lines cross

When a bar is appended, the newest segments of the fast and slow lines begin with the points of one
earlier bar and end with those of the new one. A crossing is named by the side on which the fast line
begins: it goes from below to above if it was strictly below the slow line at the earlier bar, and from
above to below otherwise. Where it ends decides nothing.
-/

namespace TradeDesk

/-- A crossing is named by the starts of the segments. -/
theorem Crossing.direction_of_intersect {a b c d : TimePoint} {p : CrossPoint}
    (h : intersect a b c d = some p) :
    p.direction = if a.value < c.value then .belowToAbove else .aboveToBelow := by
  simp only [intersect] at h
  split at h
  · split at h
    · cases h
      rfl
    · cases h
  · split at h
    · cases h
      rfl
    · cases h

/-- A crossing needs two points of each line. -/
theorem Graph.exists_of_newestCrossing? {g : Graph} {p : CrossPoint}
    (h : g.newestCrossing? = some p) :
    ∃ fastEnd fastStart slowEnd slowStart, g.fast.fromEnd? 0 = some fastEnd ∧
      g.fast.fromEnd? 1 = some fastStart ∧ g.slow.fromEnd? 0 = some slowEnd ∧
      g.slow.fromEnd? 1 = some slowStart ∧
      Crossing.intersect fastStart fastEnd slowStart slowEnd = some p := by
  obtain ⟨fastEnd, h₀, h⟩ := Option.bind_eq_some_iff.mp h
  obtain ⟨fastStart, h₁, h⟩ := Option.bind_eq_some_iff.mp h
  obtain ⟨slowEnd, h₂, h⟩ := Option.bind_eq_some_iff.mp h
  obtain ⟨slowStart, h₃, h⟩ := Option.bind_eq_some_iff.mp h
  exact ⟨fastEnd, fastStart, slowEnd, slowStart, h₀, h₁, h₂, h₃, h⟩

/-- Recording a crossing leaves the newest segments as they are. -/
theorem Graph.newestCrossing?_recordCrossing (g : Graph) :
    g.recordCrossing.newestCrossing? = g.newestCrossing? := by
  unfold recordCrossing
  split
  · rfl
  · rfl

/-- The crossing that is recorded is that of the newest segments. -/
theorem Graph.crossings_recordCrossing (g : Graph) :
    g.recordCrossing.crossings =
      match g.recordCrossing.newestCrossing? with
      | some p => g.crossings.push p
      | none => g.crossings := by
  rw [newestCrossing?_recordCrossing, recordCrossing]
  cases g.newestCrossing? with
  | none => rfl
  | some p => rfl

namespace BarSeries

variable {s : BarSeries} {c : Candle} {p : CrossPoint}

private theorem newestCrossing?_eq_none {g : Graph} (h : g.slow.size = 0) :
    g.newestCrossing? = none := by
  cases hp : g.newestCrossing? with
  | none => rfl
  | some p =>
    obtain ⟨_, _, slow, _, _, _, hslow, _⟩ := Graph.exists_of_newestCrossing? hp
    exact absurd h (Ring.size_ne_zero_of_last? hslow)

/-- A bar records the crossing of the newest segments, if there is one. -/
theorem Aligned.crossings_append (h : s.Aligned) (c : Candle) :
    (s.append c).graph.crossings =
      match (s.append c).graph.newestCrossing? with
      | some p => s.graph.crossings.push p
      | none => s.graph.crossings := by
  let t : BarSeries := ⟨s.bars.push c, s.graph.setLastBar c.timestamp⟩
  have hgraph : (s.append c).graph =
      extend t.graph c.timestamp (t.average fastPeriod) (t.average slowPeriod) := rfl
  have hfast := t.average_eq (show 0 < fastPeriod by decide)
  have hslow := t.average_eq (show 0 < slowPeriod by decide)
  by_cases henough : slowPeriod ≤ t.bars.size
  · have hfewer : fastPeriod ≤ slowPeriod := by decide
    rw [if_pos henough] at hslow
    rw [if_pos (Nat.le_trans hfewer henough)] at hfast
    rw [hgraph, hfast, hslow]
    exact Graph.crossings_recordCrossing _
  · have hsize : (s.append c).graph.slow.size = 0 := by
      have hfew : (s.append c).bars.size < slowPeriod := Nat.lt_of_not_le henough
      have hline : (s.append c).graph.slow = s.graph.slow := line_append_of_few (l := .slow) hfew
      rw [hline]
      exact h.size_slow c hfew
    rw [if_neg henough] at hslow
    rw [newestCrossing?_eq_none hsize, hgraph, hslow]
    cases t.average fastPeriod with
    | none => rfl
    | some fast => rfl

/-- The crossing that a bar records begins with the newest points from before, both of one bar, ends
with the points of the bar, and is named by its beginning. -/
theorem Aligned.segments (h : s.Aligned) (hp : (s.append c).graph.newestCrossing? = some p) :
    ∃ fast slow fast' slow', s.graph.fast.last? = some fast ∧ s.graph.slow.last? = some slow ∧
      (s.append c).graph.fast.last? = some fast' ∧ (s.append c).graph.slow.last? = some slow' ∧
      fast.ts = slow.ts ∧ fast'.ts = c.timestamp ∧ slow'.ts = c.timestamp ∧
      p.direction = if fast.value < slow.value then .belowToAbove else .aboveToBelow := by
  obtain ⟨fast', fast, slow', slow, -, hfast, hslow', hslow, hintersect⟩ :=
    Graph.exists_of_newestCrossing? hp
  have henough : slowPeriod ≤ (s.append c).bars.size :=
    (h.append c).enough (Ring.size_ne_zero_of_last? hslow')
  have hfastLine : (s.append c).graph.fast = s.graph.fast.push _ := line_append_of_enough henough .fast
  have hslowLine : (s.append c).graph.slow = s.graph.slow.push _ := line_append_of_enough henough .slow
  rw [hfastLine] at hfast
  rw [hslowLine] at hslow
  have hfastStart := Ring.fromEnd?_of_push hfast
  have hslowStart := Ring.fromEnd?_of_push hslow
  refine ⟨fast, slow, ⟨c.timestamp, (s.append c).lineValue .fast⟩,
    ⟨c.timestamp, (s.append c).lineValue .slow⟩, hfastStart, hslowStart, ?_, ?_,
    h.ts_eq hfastStart hslowStart, rfl, rfl, Crossing.direction_of_intersect hintersect⟩
  · rw [hfastLine, Ring.last?_push]
  · rw [hslowLine, Ring.last?_push]

end BarSeries

namespace Bars

/-- A sample that is appended is appended to the series of its instrument and timeframe. -/
theorem eq_append_of_appended {b : Bars} {key : Instrument} {tf : Timeframe} {c : Candle}
    {s' : BarSeries} (happended : (b.add key tf c).1 = .appended)
    (hs' : (b.add key tf c).2.get? key tf = some s') :
    s' = ((b.get? key tf).getD (.empty tf b.capacity)).append c := by
  rw [add] at happended hs'
  by_cases ht : b.timeframes.contains tf
  · rw [if_pos ht] at happended hs'
    rw [get?, Table.get?_insert_self] at hs'
    rcases BarSeries.add_cases ((b.series.get? (key, tf)).getD (.empty tf b.capacity)) c with
      hadd | ⟨_, _, hadd⟩ | hadd
    · rw [hadd] at happended
      cases happended
    · rw [hadd] at happended
      cases happended
    · rw [hadd] at hs'
      exact (Option.some.inj hs').symm
  · rw [if_neg ht] at happended
    cases happended

/-- A sample that is appended records the crossing of the newest segments, if there is one. It is
named by the side on which the fast line began, at one earlier bar for both lines: from below to above
if it began strictly below the slow line, and from above to below otherwise. So a fast line that goes
from strictly below to strictly above goes from below to above, and one that ends strictly below
without having begun there goes from above to below. -/
theorem direction_of_crossing (timeframes : List Timeframe) (capacity : Nat)
    (samples : List Sample) (key : Instrument) (tf : Timeframe) (c : Candle) (s' : BarSeries) :
    let b := ((empty timeframes capacity).feed samples).2
    let s := (b.get? key tf).getD (.empty tf b.capacity)
    (b.add key tf c).1 = .appended → (b.add key tf c).2.get? key tf = some s' →
      (s'.graph.crossings =
        match s'.graph.newestCrossing? with
        | some p => s.graph.crossings.push p
        | none => s.graph.crossings) ∧
      ∀ p, s'.graph.newestCrossing? = some p →
        ∃ fast slow fast' slow', s.graph.fast.last? = some fast ∧ s.graph.slow.last? = some slow ∧
          s'.graph.fast.last? = some fast' ∧ s'.graph.slow.last? = some slow' ∧
          fast.ts = slow.ts ∧ fast'.ts = c.timestamp ∧ slow'.ts = c.timestamp ∧
          (p.direction = .belowToAbove ↔ fast.value < slow.value) ∧
          (slow'.value < fast'.value → fast.value < slow.value → p.direction = .belowToAbove) ∧
          (fast'.value < slow'.value → ¬ fast.value < slow.value → p.direction = .aboveToBelow) := by
  intro b s happended hs'
  have haligned : s.Aligned := by
    show ((b.get? key tf).getD (.empty tf b.capacity)).Aligned
    cases hs : b.get? key tf with
    | none => exact BarSeries.aligned_empty tf b.capacity
    | some held =>
      exact of_feed (fun tf ↦ BarSeries.aligned_empty tf capacity) (fun _ _ c h ↦ h.add c)
        timeframes samples hs
  have happend : s' = s.append c := eq_append_of_appended happended hs'
  rw [happend]
  refine ⟨haligned.crossings_append c, ?_⟩
  intro p hp
  obtain ⟨fast, slow, fast', slow', hfast, hslow, hfast', hslow', hts, hfts', hsts', hdirection⟩ :=
    haligned.segments hp
  refine ⟨fast, slow, fast', slow', hfast, hslow, hfast', hslow', hts, hfts', hsts', ?_, ?_, ?_⟩
  · rw [hdirection]
    split
    · next hbelow => exact ⟨fun _ ↦ hbelow, fun _ ↦ rfl⟩
    · next hbelow =>
      constructor
      · intro h
        cases h
      · intro h
        exact absurd h hbelow
  · intro _ hbelow
    rw [hdirection, if_pos hbelow]
  · intro _ hbelow
    rw [hdirection, if_neg hbelow]

/-- A bar of one price, of the minute at a position. -/
def pricedAt (i : Nat) (close : Float) : Sample :=
  ⟨⟨"okex", "btc_usd", "quarter"⟩, .min1,
    ⟨Int64.ofNat (60 * i), close, close, close, close, 0.0, 0.0⟩⟩

/-- After a fall the fast line is below the slow one, and a rise takes it above. -/
theorem direction_of_crossing_after_fall :
    let b := ((empty [.min1] 100).feed ((List.replicate 29 100.0 ++ [65.0]).mapIdx pricedAt)).2
    let x := pricedAt 30 200.0
    ∃ s' p, (b.add x.key x.timeframe x.bar).2.get? x.key x.timeframe = some s' ∧
      s'.graph.newestCrossing? = some p ∧ p.direction = .belowToAbove := by
  intro b x
  have happended : (b.add x.key x.timeframe x.bar).1 = .appended := by decide +kernel
  obtain ⟨s', hs', hcrossing⟩ := (Option.any_eq_true _ _).mp
    (show ((b.add x.key x.timeframe x.bar).2.get? x.key x.timeframe).any
      (·.graph.newestCrossing?.isSome) = true by decide +kernel)
  obtain ⟨p, hp⟩ := Option.isSome_iff_exists.mp hcrossing
  obtain ⟨fast, slow, _, _, hfast, hslow, _, _, _, _, _, hdirection, _, _⟩ :=
    (direction_of_crossing [.min1] 100 _ x.key x.timeframe x.bar s' happended hs').2 p hp
  have hbelow : (do
      let fast ← ((b.get? x.key x.timeframe).getD (.empty x.timeframe b.capacity)).graph.fast.last?
      let slow ← ((b.get? x.key x.timeframe).getD (.empty x.timeframe b.capacity)).graph.slow.last?
      return decide (fast.value < slow.value)) = some true := by decide +kernel
  rw [hfast, hslow] at hbelow
  exact ⟨s', p, hs', hp, hdirection.mpr (of_decide_eq_true (Option.some.inj hbelow))⟩

/-- The crossing that the last of some bars of a minute records: its direction, and whether the fast
line ends strictly above and strictly below the slow one. -/
def crossingOf (earlier : List Float) (last : Float) : Option (CrossDirection × Bool × Bool) := do
  let b := ((empty [.min1] 100).feed (earlier.mapIdx pricedAt)).2
  let x := pricedAt earlier.length last
  let (.appended, b) := b.add x.key x.timeframe x.bar | none
  let s ← b.get? x.key x.timeframe
  let p ← s.graph.newestCrossing?
  let fast ← s.graph.fast.last?
  let slow ← s.graph.slow.last?
  return (p.direction, slow.value < fast.value, fast.value < slow.value)

/-- Where the fast line ends decides nothing. The lines coincide while the price stands still, and
after a rise the fast line is above: the crossing goes from above to below. A fast line that began far
above the slow one and ends just above it, within the slack of the segments, goes from above to below
too, and one that began far below and ends just below goes from below to above. -/
theorem direction_against_end :
    crossingOf (List.replicate 30 100.0) 107.0 = some (.aboveToBelow, true, false) ∧
    crossingOf (List.replicate 23 1.0 ++ 230000000001.0 :: List.replicate 6 1.0) 70000000211.0 =
      some (.aboveToBelow, true, false) ∧
    crossingOf (List.replicate 23 300000000000.0 ++ 70000000000.0 ::
      List.replicate 6 300000000000.0) 229999999790.0 = some (.belowToAbove, false, true) := by
  refine ⟨?_, ?_, ?_⟩
  · decide +kernel
  · decide +kernel
  · decide +kernel

end Bars

end TradeDesk
