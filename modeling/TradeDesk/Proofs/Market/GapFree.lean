import TradeDesk.Proofs.Market.Independence
import TradeDesk.Proofs.Market.Lines
import TradeDesk.Proofs.Series.Regular
import Mathlib.Data.List.Chain

/-!
# Series without gaps

Where every bar opens one timeframe after the one before it, and the samples in between repeat the
time of the bar they are for, the points of each line are one timeframe apart and end with the newest
bar. How many there are depends on the number of bars alone.
-/

namespace TradeDesk

/-- The samples of one bar: the one that opens it, and any number that take its place at its own
time. -/
structure BarFeed where
  opening : Candle
  updates : List Candle
  repeats : ∀ c ∈ updates, c.timestamp = opening.timestamp

namespace BarFeed

/-- The samples in the order in which they come. -/
def candles (b : BarFeed) : List Candle := b.opening :: b.updates

/-- Every bar opens one timeframe after the one before it. -/
def GapFree (tf : Timeframe) (bars : List BarFeed) : Prop :=
  bars.IsChain fun b b' => stamp b'.opening = stamp b.opening + tf.seconds

/-- The time of the last of some bars, or `stop` where there are none. -/
def lastTime (stop : Int) (bars : List BarFeed) : Int :=
  (bars.getLast?.map fun b => stamp b.opening).getD stop

theorem lastTime_cons (stop : Int) (b : BarFeed) (bars : List BarFeed) :
    lastTime stop (b :: bars) = lastTime (stamp b.opening) bars := by
  rw [lastTime, lastTime, List.getLast?_cons]
  cases bars.getLast? with
  | none => rfl
  | some last => rfl

end BarFeed

namespace BarSeries

/-! ### Samples of one series -/

/-- A series after samples, one after another. -/
def feed (s : BarSeries) (candles : List Candle) : BarSeries :=
  candles.foldl (fun s c => (s.add c).2) s

/-- What is fed in two parts is fed one after the other. -/
theorem feed_append (s : BarSeries) (first rest : List Candle) :
    s.feed (first ++ rest) = (s.feed first).feed rest := List.foldl_append

/-! ### The lines of a series without gaps -/

/-- After `n` bars without a gap, the newest of the time `stop`, each line has a point for every bar
from the first on that it could be averaged at, as far as there is room, and they are a timeframe
apart. -/
structure Regular (s : BarSeries) (tf : Timeframe) (capacity n : Nat) (stop : Int) : Prop where
  timeframe_eq : s.graph.timeframe = tf
  capacity_bars : s.bars.capacity = capacity
  size_bars : s.bars.size = min capacity n
  unopened : n = 0 → s.graph.lastBar = none
  newest : n ≠ 0 → ∃ c, s.EndsWith c ∧ stamp c = stop
  capacity_line : ∀ l, (s.graph.line l).capacity = capacity
  size_line : ∀ l, (s.graph.line l).size = min capacity (n + 1 - l.period)
  line : ∀ l, (s.graph.line l).Regular stop tf.seconds

variable {s : BarSeries} {tf : Timeframe} {capacity n : Nat} {stop : Int} {c : Candle}

theorem regular_empty (tf : Timeframe) (hcapacity : 0 < capacity) (stop : Int) :
    (empty tf capacity).Regular tf capacity 0 stop := by
  have hmax : max capacity 1 = capacity := Nat.max_eq_left hcapacity
  have hsize : ∀ l, ((empty tf capacity).graph.line l).size = 0 := by
    intro l
    cases l <;> rfl
  refine ⟨rfl, hmax, ?_, fun _ ↦ rfl, fun h ↦ absurd rfl h, ?_, ?_, ?_⟩
  · exact (Nat.min_zero capacity).symm
  · intro l
    cases l <;> exact hmax
  · intro l
    rw [hsize]
    cases l <;> exact (Nat.min_zero capacity).symm
  · intro l
    exact Ring.regular_of_size_eq_zero (hsize l) _ _

/-- The next bar, one timeframe after the newest, gives a point to each line that there are enough
bars for by then. -/
theorem Regular.append (h : s.Regular tf capacity n stop) (hcapacity : slowPeriod ≤ capacity)
    (hc : n ≠ 0 → stamp c = stop + tf.seconds) :
    (s.append c).Regular tf capacity (n + 1) (stamp c) := by
  have hbars : (s.append c).bars.size = min capacity (n + 1) := by
    show (s.bars.push c).size = _
    rw [Ring.size_push, h.capacity_bars, h.size_bars]
    split <;> omega
  have hperiod : ∀ l : Line, 2 ≤ l.period ∧ l.period ≤ slowPeriod := by
    intro l
    cases l <;> decide
  -- A line gets its first point no sooner than with the second bar, so that the step before it is
  -- without meaning for the first.
  have hstep : ∀ l, (s.graph.line l).Regular (stamp c - tf.seconds) tf.seconds := by
    intro l
    by_cases hn : n = 0
    · apply Ring.regular_of_size_eq_zero
      have := hperiod l
      rw [h.size_line l]
      omega
    · rw [hc hn, Int.add_sub_cancel]
      exact h.line l
  refine ⟨?_, ?_, hbars, fun h ↦ absurd h (Nat.succ_ne_zero n),
    fun _ ↦ ⟨c, endsWith_append s c, rfl⟩, ?_, ?_, ?_⟩
  · rw [BarSeries.append, Graph.timeframe_extend]
    exact h.timeframe_eq
  · exact (Ring.capacity_push s.bars c).trans h.capacity_bars
  · intro l
    rw [line_append]
    split
    · exact (Ring.capacity_push _ _).trans (h.capacity_line l)
    · exact h.capacity_line l
  · intro l
    have hl := hperiod l
    rw [line_append, hbars]
    split
    · rw [Ring.size_push, h.capacity_line, h.size_line]
      split <;> omega
    · rw [h.size_line]
      omega
  · intro l
    rw [line_append, hbars]
    split
    · exact (hstep l).push (Int.sub_add_cancel _ _).symm
    · next hfew =>
      have hl := hperiod l
      apply Ring.regular_of_size_eq_zero
      rw [h.size_line]
      omega

/-- A sample that repeats the time of the newest bar changes neither the lines nor any count. -/
theorem Regular.merge (h : s.Regular tf capacity n stop) (hn : n ≠ 0) (hc : stamp c = stop) :
    (s.add c).2.Regular tf capacity n stop := by
  obtain ⟨last, hends, hlast⟩ := h.newest hn
  have hmerge : s.add c = (.merged, s.merge c) := by
    have helapsed : (c.timestamp - last.timestamp).toInt = 0 := by
      have htime : c.timestamp = last.timestamp := Int64.toInt_inj.mp (hc.trans hlast.symm)
      rw [htime, Int64.sub_self, Int64.toInt_zero]
    rw [add, hends.last?_eq]
    simp only [helapsed, Int.lt_irrefl, if_false, s.graph.timeframe.seconds_pos, if_true]
  rw [hmerge]
  refine ⟨h.timeframe_eq, ?_, ?_, fun h ↦ absurd h hn,
    fun _ ↦ ⟨c, endsWith_merge hends.last?_eq c, hc⟩, h.capacity_line, h.size_line, h.line⟩
  · exact (Ring.capacity_replaceLast _ _).trans h.capacity_bars
  · exact (Ring.size_replaceLast _ _).trans h.size_bars

/-- Nor does any number of them. -/
theorem Regular.merges (h : s.Regular tf capacity n stop) (hn : n ≠ 0) {updates : List Candle}
    (hupdates : ∀ c ∈ updates, stamp c = stop) : (s.feed updates).Regular tf capacity n stop := by
  induction updates generalizing s with
  | nil => exact h
  | cons c rest ih =>
    apply ih (h.merge hn (hupdates c List.mem_cons_self))
    exact fun c' hc' ↦ hupdates c' (List.mem_cons_of_mem c hc')

/-- A sample one timeframe after the newest bar is appended. -/
theorem Regular.add_eq_append (h : s.Regular tf capacity n stop)
    (hc : n ≠ 0 → stamp c = stop + tf.seconds) : s.add c = (.appended, s.append c) := by
  have hnewest : ∀ last ∈ s.bars.last?, stamp c = stamp last + tf.seconds := by
    intro last hlast
    have hn : n ≠ 0 := by
      have hheld := Ring.size_ne_zero_of_last? hlast
      have hsize := h.size_bars
      omega
    obtain ⟨last', hends, hstop⟩ := h.newest hn
    cases hends.last?_eq.symm.trans hlast
    rw [hc hn, hstop]
  have hnear : s.NearTo c.timestamp := by
    intro last hlast
    have hdistance : stamp c - stamp last = tf.seconds := by
      have := hnewest last hlast
      omega
    show FitsWord (stamp c - stamp last)
    rw [hdistance]
    exact tf.fitsWord_seconds
  have hpos := tf.seconds_pos
  rcases add_of_near hnear with ⟨last, hlast, hlt, -⟩ | ⟨last, hlast, -, hlt, -⟩ | ⟨-, hadd⟩
  · have := hnewest last hlast
    omega
  · have := hnewest last hlast
    rw [h.timeframe_eq] at hlt
    omega
  · exact hadd

/-- All samples of the next bar together count as one bar. -/
theorem Regular.bar (h : s.Regular tf capacity n stop) (hcapacity : slowPeriod ≤ capacity)
    (b : BarFeed) (hb : n ≠ 0 → stamp b.opening = stop + tf.seconds) :
    (s.feed b.candles).Regular tf capacity (n + 1) (stamp b.opening) := by
  show (feed (s.add b.opening).2 b.updates).Regular tf capacity (n + 1) (stamp b.opening)
  rw [h.add_eq_append hb]
  apply (h.append hcapacity hb).merges (Nat.succ_ne_zero n)
  exact fun c hc ↦ congrArg Int64.toInt (b.repeats c hc)

/-- Any number of bars without a gap. The newest is then the last of them. -/
theorem Regular.bars (h : s.Regular tf capacity n stop) (hcapacity : slowPeriod ≤ capacity)
    {bars : List BarFeed} (hfirst : n ≠ 0 → ∀ b ∈ bars.head?, stamp b.opening = stop + tf.seconds)
    (hbars : BarFeed.GapFree tf bars) :
    (s.feed (bars.flatMap BarFeed.candles)).Regular tf capacity (n + bars.length)
      (BarFeed.lastTime stop bars) := by
  induction bars generalizing s n stop with
  | nil => exact h
  | cons b rest ih =>
    obtain ⟨hnext, hrest⟩ := List.isChain_cons.mp hbars
    have hb := h.bar hcapacity b fun hn ↦ hfirst hn b rfl
    have hlast := ih hb (fun _ ↦ hnext) hrest
    rw [← BarFeed.lastTime_cons stop] at hlast
    rw [List.flatMap_cons, feed_append, List.length_cons, Nat.add_comm rest.length,
      ← Nat.add_assoc]
    exact hlast

end BarSeries

namespace Bars

/-- A series is what its own samples make of it, whichever samples of other series come between. -/
theorem seriesOf_feed (b : Bars) (samples : List Sample) (key : Instrument) {tf : Timeframe}
    (htf : tf ∈ b.timeframes) :
    (b.feed samples).2.seriesOf key tf =
      (b.seriesOf key tf).feed ((samples.filter (·.series = (key, tf))).map (·.bar)) := by
  induction samples generalizing b with
  | nil => rfl
  | cons x rest ih =>
    have hone := b.seriesOf_add x key tf
    have hrest := ih (b.add x.key x.timeframe x.bar).2 (by rw [timeframes_add]; exact htf)
    show ((b.add x.key x.timeframe x.bar).2.feed rest).2.seriesOf key tf = _
    rw [hrest]
    by_cases hx : x.series = (key, tf)
    · rw [if_pos ⟨htf, hx⟩] at hone
      rw [hone, List.filter_cons_of_pos (by simpa using hx)]
      rfl
    · rw [if_neg fun h ↦ hx h.2] at hone
      rw [hone, List.filter_cons_of_neg (by simpa using hx)]

/-- Samples of which those of one series are bars without a gap make a regular series of these. -/
theorem regular_of_feed {timeframes : List Timeframe} {capacity : Nat}
    (hcapacity : slowPeriod ≤ capacity) {samples : List Sample} {key : Instrument} {tf : Timeframe}
    (htf : tf ∈ timeframes) {bars : List BarFeed} (hbars : BarFeed.GapFree tf bars)
    (hsamples : (samples.filter (·.series = (key, tf))).map (·.bar) =
      bars.flatMap BarFeed.candles) :
    (((empty timeframes capacity).feed samples).2.seriesOf key tf).Regular tf capacity bars.length
      (BarFeed.lastTime 0 bars) := by
  have hempty := BarSeries.regular_empty tf (Nat.lt_of_lt_of_le (by decide) hcapacity) 0
  have hlast := hempty.bars hcapacity (fun h ↦ absurd rfl h) hbars
  rw [Nat.zero_add] at hlast
  rw [seriesOf_feed (empty timeframes capacity) samples key htf, hsamples]
  exact hlast

end Bars

end TradeDesk
