import TradeDesk.Market.Bars
import TradeDesk.Proofs.Market.Distances
import TradeDesk.Proofs.Series.Ring

/-!
# Times in words

Times are 64-bit words, and a distance of two words that is none wraps around. Here bars, lines and
crossings are computed once more with every distance of times checked, and there is no result where a
distance is no word. As long as all times are those of timestamps in milliseconds, all distances are
words, and the results are those without the checks: nothing wraps around.
-/

namespace TradeDesk

/-! ### Crossings -/

namespace Crossing

/-- The way from one point to another, with its duration checked. -/
def betweenInWords (source target : TimePoint) : Option Vector := do
  let dt ← minus? target.ts source.ts
  return ⟨Float.ofInt dt.toInt, target.value - source.value⟩

/-- Where two segments meet, with all durations checked. -/
def intersectInWords (a b c d : TimePoint) : Option (Option CrossPoint) := do
  let direction := if a.value < c.value then .belowToAbove else .aboveToBelow
  let r ← betweenInWords a b
  let s ← betweenInWords c d
  let denom := cross r s
  if denom.abs ≤ parallelSlack * norm r * norm s then
    return if a.same c && b.same d then some ⟨a.ts, a.value, direction⟩ else none
  else
    let ac ← betweenInWords a c
    let t := cross ac s / denom
    let u := cross ac r / denom
    return if onSegment t && onSegment u then
      some ⟨Binary64.roundWord (Float.ofInt a.ts.toInt + t * r.dt), a.value + t * r.dv, direction⟩
    else none

variable {a b c d : TimePoint}

theorem betweenInWords_eq (ha : Dated a.ts) (hb : Dated b.ts) :
    betweenInWords a b = some (between a b) := by
  rw [betweenInWords, minus?_eq (ha.near hb)]
  rfl

theorem intersectInWords_eq (ha : Dated a.ts) (hb : Dated b.ts) (hc : Dated c.ts)
    (hd : Dated d.ts) : intersectInWords a b c d = some (intersect a b c d) := by
  simp only [intersectInWords, betweenInWords_eq ha hb, betweenInWords_eq hc hd,
    betweenInWords_eq ha hc, Option.bind_eq_bind, Option.bind_some, Option.pure_def]
  unfold intersect
  simp only
  split
  · rfl
  · rfl

end Crossing

/-! ### Lines -/

namespace Graph

/-- The crossing of the newest segments, with all durations checked. -/
def newestCrossingInWords (g : Graph) : Option (Option CrossPoint) :=
  match g.fast.fromEnd? 0, g.fast.fromEnd? 1, g.slow.fromEnd? 0, g.slow.fromEnd? 1 with
  | some fastEnd, some fastStart, some slowEnd, some slowStart =>
    Crossing.intersectInWords fastStart fastEnd slowStart slowEnd
  | _, _, _, _ => some none

/-- Records the crossing of the newest segments, with all durations checked. -/
def recordCrossingInWords (g : Graph) : Option Graph := do
  match ← g.newestCrossingInWords with
  | some p => return { g with crossings := g.crossings.push p }
  | none => return g

/-- The slope between two points, with the time between them checked. -/
def slopeWithWords (g : Graph) (head tail : TimePoint) : Option Float := do
  let elapsed ← minus? tail.ts head.ts
  if elapsed = 0 then return 0.0
  else
    return (tail.value - head.value) /
      (Float.ofInt elapsed.toInt / Float.ofInt g.timeframe.seconds)

/-- The slope of a line from `start` to `stop`, with the time between its ends checked. -/
def slopeInWords (g : Graph) (l : Line) (start stop : Int64) : Option (Option Float) :=
  match (g.line l).endsWithin? start.toInt stop.toInt with
  | some (head, tail) => (g.slopeWithWords head tail).map some
  | none => some none

/-- Every time on the lines is one that timestamps can name. The times of crossings are left out:
they are rounded from floating point, and no distances are taken from them. -/
structure Dated (g : Graph) : Prop where
  points : ∀ l, ∀ p ∈ (g.line l).toList, TradeDesk.Dated p.ts
  lastBar : ∀ time ∈ g.lastBar, TradeDesk.Dated time

variable {g : Graph}

theorem dated_empty (tf : Timeframe) (capacity : Nat) : (empty tf capacity).Dated where
  points l p hp := by
    have hline : ((empty tf capacity).line l).toList = [] := by
      cases l <;> exact Ring.toList_withCapacity capacity
    rw [hline] at hp
    cases hp
  lastBar time h := by cases h

theorem Dated.setLastBar (h : g.Dated) {time : Int64} (ht : TradeDesk.Dated time) :
    (g.setLastBar time).Dated where
  points := h.points
  lastBar time' h' := by
    cases h'
    exact ht

private theorem dated_of_mem_push {r : Ring TimePoint} {p q : TimePoint}
    (hr : ∀ q ∈ r.toList, TradeDesk.Dated q.ts) (hp : TradeDesk.Dated p.ts)
    (hq : q ∈ (r.push p).toList) : TradeDesk.Dated q.ts := by
  cases Ring.eq_or_mem_of_mem_push hq with
  | inl heq =>
    rw [heq]
    exact hp
  | inr hmem => exact hr q hmem

theorem Dated.pushFast (h : g.Dated) {p : TimePoint} (hp : TradeDesk.Dated p.ts) :
    (g.pushFast p).Dated where
  points l q hq := by
    cases l with
    | fast => exact dated_of_mem_push (h.points .fast) hp hq
    | slow => exact h.points .slow q hq
    | diff => exact h.points .diff q hq
  lastBar := h.lastBar

theorem Dated.pushSlow (h : g.Dated) {p : TimePoint} (hp : TradeDesk.Dated p.ts) :
    (g.pushSlow p).Dated where
  points l q hq := by
    cases l with
    | fast => exact h.points .fast q hq
    | slow => exact dated_of_mem_push (h.points .slow) hp hq
    | diff => exact h.points .diff q hq
  lastBar := h.lastBar

theorem Dated.pushDiff (h : g.Dated) {p : TimePoint} (hp : TradeDesk.Dated p.ts) :
    (g.pushDiff p).Dated where
  points l q hq := by
    cases l with
    | fast => exact h.points .fast q hq
    | slow => exact h.points .slow q hq
    | diff => exact dated_of_mem_push (h.points .diff) hp hq
  lastBar := h.lastBar

theorem Dated.recordCrossing (h : g.Dated) : g.recordCrossing.Dated := by
  unfold Graph.recordCrossing
  split
  · exact ⟨fun l p hp ↦ h.points l p (by cases l <;> exact hp), h.lastBar⟩
  · exact h

theorem Dated.newestCrossingInWords_eq (h : g.Dated) :
    g.newestCrossingInWords = some g.newestCrossing? := by
  have hfast : ∀ {n p}, g.fast.fromEnd? n = some p → TradeDesk.Dated p.ts :=
    fun hp ↦ h.points .fast _ (Ring.mem_of_fromEnd? hp)
  have hslow : ∀ {n p}, g.slow.fromEnd? n = some p → TradeDesk.Dated p.ts :=
    fun hp ↦ h.points .slow _ (Ring.mem_of_fromEnd? hp)
  unfold newestCrossingInWords newestCrossing?
  cases h₀ : g.fast.fromEnd? 0 with
  | none => rfl
  | some fastEnd =>
    cases h₁ : g.fast.fromEnd? 1 with
    | none => rfl
    | some fastStart =>
      cases h₂ : g.slow.fromEnd? 0 with
      | none => rfl
      | some slowEnd =>
        cases h₃ : g.slow.fromEnd? 1 with
        | none => rfl
        | some slowStart =>
          exact Crossing.intersectInWords_eq (hfast h₁) (hfast h₀) (hslow h₃) (hslow h₂)

theorem Dated.recordCrossingInWords_eq (h : g.Dated) :
    g.recordCrossingInWords = some g.recordCrossing := by
  rw [recordCrossingInWords, h.newestCrossingInWords_eq, Graph.recordCrossing]
  cases g.newestCrossing? with
  | none => rfl
  | some p => rfl

theorem slopeWithWords_eq {head tail : TimePoint} (hh : TradeDesk.Dated head.ts)
    (ht : TradeDesk.Dated tail.ts) (g : Graph) :
    g.slopeWithWords head tail = some (g.slope head tail) := by
  rw [slopeWithWords, minus?_eq (hh.near ht), slope]
  simp only [Option.bind_eq_bind, Option.bind_some, Option.pure_def]
  split
  · rfl
  · rfl

theorem Dated.slopeInWords_eq (h : g.Dated) (l : Line) (start stop : Int64) :
    g.slopeInWords l start stop = some (g.slopeIn? l start.toInt stop.toInt) := by
  unfold slopeInWords slopeIn?
  cases hends : (g.line l).endsWithin? start.toInt stop.toInt with
  | none => rfl
  | some ends =>
    obtain ⟨hh, ht⟩ := Ring.mem_of_endsWithin? hends
    show (g.slopeWithWords ends.1 ends.2).map some = _
    rw [slopeWithWords_eq (h.points l _ hh) (h.points l _ ht)]
    rfl

end Graph

/-! ### Bars -/

namespace BarSeries

/-- Extends the lines after a new bar, with all durations checked. -/
def extendInWords (g : Graph) (ts : Int64) (fast slow : Option Float) : Option Graph :=
  let g := match fast with
    | some v => g.pushFast ⟨ts, v⟩
    | none => g
  let g := match slow with
    | some v => g.pushSlow ⟨ts, v⟩
    | none => g
  match fast, slow with
  | some f, some s => (g.pushDiff ⟨ts, (f - s).abs⟩).recordCrossingInWords
  | _, _ => some g

/-- The series with a new bar, with all durations checked. -/
def appendInWords (s : BarSeries) (c : Candle) : Option BarSeries := do
  let s : BarSeries := ⟨s.bars.push c, s.graph.setLastBar c.timestamp⟩
  let graph ← extendInWords s.graph c.timestamp (s.average fastPeriod) (s.average slowPeriod)
  return ⟨s.bars, graph⟩

/-- One sample, with all durations checked. -/
def addInWords (s : BarSeries) (c : Candle) : Option (BarUpdate × BarSeries) :=
  match s.bars.last? with
  | some last => do
    let elapsed ← minus? c.timestamp last.timestamp
    if elapsed < 0 then return (.dropped, s)
    else if elapsed.toInt < s.graph.timeframe.seconds then return (.merged, s.merge c)
    else return (.appended, ← s.appendInWords c)
  | none => do return (.appended, ← s.appendInWords c)

/-- Every time in a series is one that timestamps can name. -/
structure Dated (s : BarSeries) : Prop where
  bars : ∀ c ∈ s.bars.toList, TradeDesk.Dated c.timestamp
  graph : s.graph.Dated

variable {s : BarSeries} {g : Graph} {c : Candle} {ts : Int64}

theorem dated_empty (tf : Timeframe) (capacity : Nat) : (empty tf capacity).Dated where
  bars c hc := by
    rw [empty, Ring.toList_withCapacity] at hc
    cases hc
  graph := Graph.dated_empty tf capacity

theorem dated_extend (hg : g.Dated) (ht : TradeDesk.Dated ts) (fast slow : Option Float) :
    (extend g ts fast slow).Dated := by
  cases fast with
  | none =>
    cases slow with
    | none => exact hg
    | some s => exact hg.pushSlow ht
  | some f =>
    cases slow with
    | none => exact hg.pushFast ht
    | some s => exact (((hg.pushFast ht).pushSlow ht).pushDiff ht).recordCrossing

theorem extendInWords_eq (hg : g.Dated) (ht : TradeDesk.Dated ts) (fast slow : Option Float) :
    extendInWords g ts fast slow = some (extend g ts fast slow) := by
  cases fast with
  | none =>
    cases slow with
    | none => rfl
    | some s => rfl
  | some f =>
    cases slow with
    | none => rfl
    | some s => exact (((hg.pushFast ht).pushSlow ht).pushDiff ht).recordCrossingInWords_eq

theorem Dated.append (h : s.Dated) (hc : TradeDesk.Dated c.timestamp) : (s.append c).Dated where
  bars x hx := by
    cases Ring.eq_or_mem_of_mem_push hx with
    | inl heq =>
      rw [heq]
      exact hc
    | inr hmem => exact h.bars x hmem
  graph := dated_extend (h.graph.setLastBar hc) hc _ _

theorem Dated.merge (h : s.Dated) (hc : TradeDesk.Dated c.timestamp) : (s.merge c).Dated where
  bars x hx := by
    cases Ring.eq_or_mem_of_mem_replaceLast hx with
    | inl heq =>
      rw [heq]
      exact hc
    | inr hmem => exact h.bars x hmem
  graph := h.graph.setLastBar hc

theorem Dated.appendInWords_eq (h : s.Dated) (hc : TradeDesk.Dated c.timestamp) :
    s.appendInWords c = some (s.append c) := by
  simp only [appendInWords, extendInWords_eq (h.graph.setLastBar hc) hc, BarSeries.append,
    Option.bind_eq_bind, Option.bind_some, Option.pure_def]

/-- A sample leaves only times that timestamps can name. -/
theorem Dated.add (h : s.Dated) (hc : TradeDesk.Dated c.timestamp) : (s.add c).2.Dated := by
  unfold BarSeries.add
  split
  · simp only
    split
    · exact h
    · split
      · exact h.merge hc
      · exact h.append hc
  · exact h.append hc

/-- A sample is taken with the checks as without. -/
theorem Dated.addInWords_eq (h : s.Dated) (hc : TradeDesk.Dated c.timestamp) :
    s.addInWords c = some (s.add c) := by
  unfold addInWords BarSeries.add
  cases hl : s.bars.last? with
  | none => simp only [h.appendInWords_eq hc, Option.bind_eq_bind, Option.bind_some,
      Option.pure_def]
  | some last =>
    have hnear := (h.bars last (Ring.mem_of_fromEnd? hl)).near hc
    have hneg : c.timestamp - last.timestamp < 0 ↔ (c.timestamp - last.timestamp).toInt < 0 :=
      Int64.lt_iff_toInt_lt
    simp only [minus?_eq hnear, hneg, h.appendInWords_eq hc, Option.bind_eq_bind, Option.bind_some,
      Option.pure_def]
    split
    · rfl
    · split
      · rfl
      · rfl

end BarSeries

namespace Bars

/-- One sample, with all durations checked. -/
def addInWords (b : Bars) (key : Instrument) (tf : Timeframe) (c : Candle) :
    Option (BarUpdate × Bars) :=
  if b.timeframes.contains tf then do
    let (update, s) ← ((b.series.get? (key, tf)).getD (.empty tf b.capacity)).addInWords c
    return (update,
      { b with
        series := b.series.insert (key, tf) s
        dropped := if update = .dropped then b.dropped + 1 else b.dropped })
  else some (.untracked, b)

/-- Every time in the bars is one that timestamps can name. -/
def Dated (b : Bars) : Prop := ∀ k, ∀ s ∈ b.series.get? k, s.Dated

theorem dated_empty (timeframes : List Timeframe) (capacity : Nat) :
    (empty timeframes capacity).Dated := by
  intro k s hs
  cases hs

variable {b : Bars} {c : Candle}

private theorem Dated.getD (h : b.Dated) (key : Instrument) (tf : Timeframe) :
    ((b.series.get? (key, tf)).getD (.empty tf b.capacity)).Dated := by
  cases hs : b.series.get? (key, tf) with
  | none => exact BarSeries.dated_empty tf b.capacity
  | some s => exact h (key, tf) s hs

/-- A sample leaves only times that timestamps can name. -/
theorem Dated.add (h : b.Dated) (hc : TradeDesk.Dated c.timestamp) (key : Instrument)
    (tf : Timeframe) : (b.add key tf c).2.Dated := by
  unfold Bars.add
  split
  · intro k s hs
    change (b.series.insert (key, tf) _).get? k = some s at hs
    rw [Table.get?_insert] at hs
    split at hs
    · cases hs
      exact (h.getD key tf).add hc
    · exact h k s hs
  · exact h

/-- A sample is taken with the checks as without. -/
theorem Dated.addInWords_eq (h : b.Dated) (hc : TradeDesk.Dated c.timestamp) (key : Instrument)
    (tf : Timeframe) : b.addInWords key tf c = some (b.add key tf c) := by
  unfold addInWords Bars.add
  split
  · rw [(h.getD key tf).addInWords_eq hc]
    rfl
  · rfl

/-- Without a bound on the times a distance need not fit. -/
example :
    let key : Instrument := ⟨"okex", "btc_usd", "quarter"⟩
    let b := (empty [.min1] 30).add key .min1 ⟨-1, 20.0, 20.0, 20.0, 20.0, 0.0, 0.0⟩
    (b.2.addInWords key .min1 ⟨Int64.maxValue, 20.0, 20.0, 20.0, 20.0, 0.0, 0.0⟩).isNone := by
  decide +kernel

/-- The lines of dated bars are dated. -/
theorem Dated.graph (h : b.Dated) {key : Instrument} {tf : Timeframe} {g : Graph}
    (hg : b.graph? key tf = some g) : g.Dated := by
  obtain ⟨s, hs, rfl⟩ := Option.map_eq_some_iff.mp hg
  exact (h (key, tf) s hs).graph

end Bars

end TradeDesk
