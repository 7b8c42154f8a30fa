import TradeDesk.Proofs.Market.BarSpan
import TradeDesk.Proofs.Series.Window

/-!
# Bars that were given up

A series of bars keeps only so many bars, points and crossings. Beside it stands the history of the
same samples, in lists from which nothing is ever given up. A series with room for as many bars as
the slow line averages answers every sample as the history does, and holds the newest part of each
of its lists: what was given up is not read again.
-/

namespace TradeDesk

/-! ### Bars without bounds -/

/-- The bars of one instrument and timeframe with their lines, all of them, oldest first. -/
structure BarHistory where
  bars : List Candle := []
  fast : List TimePoint := []
  slow : List TimePoint := []
  diff : List TimePoint := []
  crossings : List CrossPoint := []
  lastBar : Option Int64 := none

namespace BarHistory

/-- The mean close of the newest `period` bars. -/
def average (h : BarHistory) (period : Nat) : Option Float :=
  movingAverage (h.bars.reverse.map (·.close)) period

/-- The crossing of the newest segments of a fast and a slow line. Each needs two points. -/
def newestCrossing? (fast slow : List TimePoint) : Option CrossPoint :=
  match fast.reverse, slow.reverse with
  | b :: a :: _, d :: c :: _ => Crossing.intersect a b c d
  | _, _ => none

/-- The lines after a bar of time `ts` came, with the averages then. -/
def extend (h : BarHistory) (ts : Int64) (fast slow : Option Float) : BarHistory :=
  let fasts := h.fast ++ (fast.map fun v => (⟨ts, v⟩ : TimePoint)).toList
  let slows := h.slow ++ (slow.map fun v => (⟨ts, v⟩ : TimePoint)).toList
  match fast, slow with
  | some f, some s =>
    { h with
      fast := fasts
      slow := slows
      diff := h.diff ++ [⟨ts, (f - s).abs⟩]
      crossings := h.crossings ++ (newestCrossing? fasts slows).toList }
  | _, _ => { h with fast := fasts, slow := slows }

/-- Every line gets one more element at most, and the bars stay as they are. -/
theorem extend_eq (h : BarHistory) (ts : Int64) (fast slow : Option Float) :
    ∃ (p q d : Option TimePoint) (x : Option CrossPoint), h.extend ts fast slow =
      { h with
        fast := h.fast ++ p.toList
        slow := h.slow ++ q.toList
        diff := h.diff ++ d.toList
        crossings := h.crossings ++ x.toList } := by
  cases fast with
  | none => exact ⟨none, slow.map fun v => ⟨ts, v⟩, none, none, by simp [extend]⟩
  | some f =>
    cases slow with
    | none => exact ⟨some ⟨ts, f⟩, none, none, none, by simp [extend]⟩
    | some s => exact ⟨some ⟨ts, f⟩, some ⟨ts, s⟩, some _, _, rfl⟩

/-- The history with a new bar. -/
def append (h : BarHistory) (c : Candle) : BarHistory :=
  let h : BarHistory := { h with bars := h.bars ++ [c], lastBar := some c.timestamp }
  h.extend c.timestamp (h.average fastPeriod) (h.average slowPeriod)

/-- The history with its newest bar replaced. -/
def merge (h : BarHistory) (c : Candle) : BarHistory :=
  { h with bars := h.bars.dropLast ++ [c], lastBar := some c.timestamp }

/-- One sample for a timeframe. -/
def add (h : BarHistory) (tf : Timeframe) (c : Candle) : BarUpdate × BarHistory :=
  match h.bars.getLast? with
  | some last =>
    let elapsed := (c.timestamp - last.timestamp).toInt
    if elapsed < 0 then (.dropped, h)
    else if elapsed < tf.seconds then (.merged, h.merge c)
    else (.appended, h.append c)
  | none => (.appended, h.append c)

/-- The newest `n` elements of every list. -/
def newest (h : BarHistory) (n : Nat) : BarHistory where
  bars := h.bars.rtake n
  fast := h.fast.rtake n
  slow := h.slow.rtake n
  diff := h.diff.rtake n
  crossings := h.crossings.rtake n
  lastBar := h.lastBar

end BarHistory

/-- The histories of every instrument and aggregated timeframe. -/
structure BarArchive where
  timeframes : List Timeframe
  series : Table (Instrument × Timeframe) BarHistory := .empty
  /-- How many samples came too late. -/
  dropped : Nat := 0

namespace BarArchive

/-- No samples yet. -/
def empty (timeframes : List Timeframe) : BarArchive := { timeframes := timeframes }

/-- One sample; the first of an instrument and timeframe starts its history. -/
def add (a : BarArchive) (x : Sample) : BarUpdate × BarArchive :=
  if a.timeframes.contains x.timeframe then
    let (update, h) :=
      ((a.series.get? (x.key, x.timeframe)).getD {}).add x.timeframe x.bar
    (update,
      { a with
        series := a.series.insert (x.key, x.timeframe) h
        dropped := if update = .dropped then a.dropped + 1 else a.dropped })
  else (.untracked, a)

/-- Samples one after another, each with its answer, and the archive after the last of them. -/
def feed (a : BarArchive) : List Sample → List (Sample × BarUpdate) × BarArchive
  | [] => ([], a)
  | x :: rest =>
    let (update, a) := a.add x
    let (answered, a) := a.feed rest
    ((x, update) :: answered, a)

end BarArchive

/-! ### Lines -/

namespace Graph

/-- A graph of a timeframe holds the newest part of the lines of a history. -/
structure Holds (g : Graph) (tf : Timeframe) (capacity : Nat) (h : BarHistory) : Prop where
  timeframe_eq : g.timeframe = tf
  fast : g.fast.Holds capacity h.fast
  slow : g.slow.Holds capacity h.slow
  diff : g.diff.Holds capacity h.diff
  crossings : g.crossings.Holds capacity h.crossings
  lastBar_eq : g.lastBar = h.lastBar

variable {g : Graph} {tf : Timeframe} {capacity : Nat} {h : BarHistory}

/-- Two points of each line are enough to find the newest crossing. -/
theorem Holds.newestCrossing?_eq (hg : g.Holds tf capacity h) (hc : 2 ≤ capacity) :
    g.newestCrossing? = BarHistory.newestCrossing? h.fast h.slow := by
  simp only [newestCrossing?, hg.fast.fromEnd? (Nat.lt_of_lt_of_le Nat.zero_lt_two hc),
    hg.fast.fromEnd? (Nat.lt_of_lt_of_le Nat.one_lt_two hc),
    hg.slow.fromEnd? (Nat.lt_of_lt_of_le Nat.zero_lt_two hc),
    hg.slow.fromEnd? (Nat.lt_of_lt_of_le Nat.one_lt_two hc), BarHistory.newestCrossing?]
  rcases h.fast.reverse with _ | ⟨b, _ | ⟨a, older⟩⟩
  · rfl
  · rfl
  · rcases h.slow.reverse with _ | ⟨d, _ | ⟨c, older'⟩⟩
    · rfl
    · rfl
    · rfl

private theorem Holds.recordCrossing (hg : g.Holds tf capacity h) (hc : 2 ≤ capacity) :
    g.recordCrossing.Holds tf capacity
      { h with
        crossings := h.crossings ++ (BarHistory.newestCrossing? h.fast h.slow).toList } := by
  rw [Graph.recordCrossing, hg.newestCrossing?_eq hc]
  cases BarHistory.newestCrossing? h.fast h.slow with
  | none => simpa using hg
  | some p => exact { hg with crossings := hg.crossings.push p }

private theorem Holds.pushFast (hg : g.Holds tf capacity h) (p : TimePoint) :
    (g.pushFast p).Holds tf capacity { h with fast := h.fast ++ [p] } :=
  { hg with fast := hg.fast.push p }

private theorem Holds.pushSlow (hg : g.Holds tf capacity h) (p : TimePoint) :
    (g.pushSlow p).Holds tf capacity { h with slow := h.slow ++ [p] } :=
  { hg with slow := hg.slow.push p }

private theorem Holds.pushDiff (hg : g.Holds tf capacity h) (p : TimePoint) :
    (g.pushDiff p).Holds tf capacity { h with diff := h.diff ++ [p] } :=
  { hg with diff := hg.diff.push p }

/-- Lines are extended as those of the history are. -/
theorem Holds.extend (hg : g.Holds tf capacity h) (hc : 2 ≤ capacity) (ts : Int64)
    (fast slow : Option Float) :
    (BarSeries.extend g ts fast slow).Holds tf capacity (h.extend ts fast slow) := by
  cases fast with
  | none =>
    cases slow with
    | none => simpa [BarSeries.extend, BarHistory.extend] using hg
    | some s => simpa [BarSeries.extend, BarHistory.extend] using hg.pushSlow ⟨ts, s⟩
  | some f =>
    cases slow with
    | none => simpa [BarSeries.extend, BarHistory.extend] using hg.pushFast ⟨ts, f⟩
    | some s =>
      exact (((hg.pushFast ⟨ts, f⟩).pushSlow ⟨ts, s⟩).pushDiff ⟨ts, (f - s).abs⟩).recordCrossing hc

end Graph

/-! ### One series -/

namespace BarSeries

/-- Everything that is held, as lists. -/
def contents (s : BarSeries) : BarHistory where
  bars := s.bars.toList
  fast := s.graph.fast.toList
  slow := s.graph.slow.toList
  diff := s.graph.diff.toList
  crossings := s.graph.crossings.toList
  lastBar := s.graph.lastBar

/-- A series of a timeframe holds the newest part of a history. -/
structure Holds (s : BarSeries) (tf : Timeframe) (capacity : Nat) (h : BarHistory) : Prop where
  bars : s.bars.Holds capacity h.bars
  graph : s.graph.Holds tf capacity h

variable {s : BarSeries} {tf : Timeframe} {capacity : Nat} {h : BarHistory}

/-- A new series holds the empty history. -/
theorem holds_empty (tf : Timeframe) (hc : 0 < capacity) : (empty tf capacity).Holds tf capacity {}
    where
  bars := Ring.holds_withCapacity hc
  graph :=
    { timeframe_eq := rfl
      fast := Ring.holds_withCapacity hc
      slow := Ring.holds_withCapacity hc
      diff := Ring.holds_withCapacity hc
      crossings := Ring.holds_withCapacity hc
      lastBar_eq := rfl }

/-- What a series holds is the newest part of its history. -/
theorem Holds.contents_eq (hs : s.Holds tf capacity h) : s.contents = h.newest capacity := by
  rw [contents, hs.bars.toList_eq, hs.graph.fast.toList_eq, hs.graph.slow.toList_eq,
    hs.graph.diff.toList_eq, hs.graph.crossings.toList_eq, hs.graph.lastBar_eq]
  rfl

/-- With as much room as an average needs bars, it is the average over the history. -/
theorem Holds.average_eq (hs : s.Holds tf capacity h) {period : Nat} (hp : period ≤ capacity) :
    s.average period = h.average period := by
  rw [average, BarHistory.average, hs.bars.newest hp, List.map_take, movingAverage, movingAverage,
    List.take_take, Nat.min_self]

/-- A new bar is a new bar of the history. -/
theorem Holds.append (hs : s.Holds tf capacity h) (hc : slowPeriod ≤ capacity) (c : Candle) :
    (s.append c).Holds tf capacity (h.append c) := by
  have hbar : (⟨s.bars.push c, s.graph.setLastBar c.timestamp⟩ : BarSeries).Holds tf capacity
      { h with bars := h.bars ++ [c], lastBar := some c.timestamp } :=
    ⟨hs.bars.push c, { hs.graph with lastBar_eq := rfl }⟩
  have hfast := hbar.average_eq (Nat.le_trans (by decide : fastPeriod ≤ slowPeriod) hc)
  have hslow := hbar.average_eq hc
  rw [BarSeries.append, BarHistory.append]
  simp only [hfast, hslow]
  refine ⟨?_, hbar.graph.extend (Nat.le_trans (by decide : 2 ≤ slowPeriod) hc) _ _ _⟩
  obtain ⟨p, q, d, x, he⟩ := BarHistory.extend_eq { h with
    bars := h.bars ++ [c]
    lastBar := some c.timestamp } c.timestamp _ _
  rw [he]
  exact hbar.bars

/-- A replaced bar is a replaced bar of the history. -/
theorem Holds.merge (hs : s.Holds tf capacity h) (hb : h.bars ≠ []) (c : Candle) :
    (s.merge c).Holds tf capacity (h.merge c) :=
  ⟨hs.bars.replaceLast hb c, { hs.graph with lastBar_eq := rfl }⟩

/-- A series answers a sample as its history does, and goes on to hold the newest part of it. -/
theorem Holds.add (hs : s.Holds tf capacity h) (hc : slowPeriod ≤ capacity) (c : Candle) :
    (s.add c).1 = (h.add tf c).1 ∧ (s.add c).2.Holds tf capacity (h.add tf c).2 := by
  rw [BarSeries.add, BarHistory.add, hs.bars.last?, hs.graph.timeframe_eq]
  cases hlast : h.bars.getLast? with
  | none => exact ⟨rfl, hs.append hc c⟩
  | some last =>
    have hb : h.bars ≠ [] := by
      intro hnil
      rw [hnil] at hlast
      cases hlast
    simp only
    split
    · exact ⟨rfl, hs⟩
    · split
      · exact ⟨rfl, hs.merge hb c⟩
      · exact ⟨rfl, hs.append hc c⟩

end BarSeries

/-! ### How much a history holds -/

namespace BarHistory

/-- No list of a history is longer than `n`. -/
structure Within (h : BarHistory) (n : Nat) : Prop where
  bars : h.bars.length ≤ n
  fast : h.fast.length ≤ n
  slow : h.slow.length ≤ n
  diff : h.diff.length ≤ n
  crossings : h.crossings.length ≤ n

variable {h : BarHistory} {n : Nat}

/-- The empty history is not longer than anything. -/
theorem within_nil (n : Nat) : ({} : BarHistory).Within n :=
  ⟨Nat.zero_le n, Nat.zero_le n, Nat.zero_le n, Nat.zero_le n, Nat.zero_le n⟩

/-- A weaker bound. -/
theorem Within.mono {m : Nat} (hn : h.Within n) (hm : n ≤ m) : h.Within m :=
  ⟨hn.bars.trans hm, hn.fast.trans hm, hn.slow.trans hm, hn.diff.trans hm, hn.crossings.trans hm⟩

private theorem length_append_toList_le {α : Type} {l : List α} (hl : l.length ≤ n)
    (a : Option α) : (l ++ a.toList).length ≤ n + 1 := by
  cases a with
  | none => simpa using Nat.le_succ_of_le hl
  | some a => simpa using hl

private theorem Within.append (hn : h.Within n) (c : Candle) : (h.append c).Within (n + 1) := by
  obtain ⟨p, q, d, x, he⟩ := extend_eq { h with
    bars := h.bars ++ [c]
    lastBar := some c.timestamp } c.timestamp _ _
  rw [BarHistory.append, he]
  exact ⟨length_append_toList_le hn.bars (some c), length_append_toList_le hn.fast p,
    length_append_toList_le hn.slow q, length_append_toList_le hn.diff d,
    length_append_toList_le hn.crossings x⟩

/-- A sample adds one element to each list at most. -/
theorem Within.add (hn : h.Within n) (tf : Timeframe) (c : Candle) :
    (h.add tf c).2.Within (n + 1) := by
  rw [BarHistory.add]
  split
  · simp only
    split
    · exact hn.mono (Nat.le_succ n)
    · split
      · have hbars : (h.bars.dropLast ++ [c]).length ≤ n + 1 := by
          rw [List.length_append, List.length_dropLast, List.length_singleton]
          have := hn.bars
          omega
        exact { hn.mono (Nat.le_succ n) with bars := hbars }
      · exact hn.append c
  · exact hn.append c

/-- A history that is not longer is its own newest part. -/
theorem Within.newest_eq (hn : h.Within n) : h.newest n = h := by
  rw [newest, Ring.rtake_of_length_le hn.bars, Ring.rtake_of_length_le hn.fast,
    Ring.rtake_of_length_le hn.slow, Ring.rtake_of_length_le hn.diff,
    Ring.rtake_of_length_le hn.crossings]

end BarHistory

/-! ### All series -/

namespace BarArchive

variable {a : BarArchive} {n : Nat}

/-- A sample makes every history longer by one element at most. -/
theorem within_add (ha : ∀ k, ∀ h ∈ a.series.get? k, h.Within n) (x : Sample) :
    ∀ k, ∀ h ∈ (a.add x).2.series.get? k, h.Within (n + 1) := by
  intro k h hk
  rw [add] at hk
  split at hk
  · simp only [Table.get?_insert] at hk
    split at hk
    · cases hk
      apply BarHistory.Within.add
      cases hx : a.series.get? (x.key, x.timeframe) with
      | none => exact BarHistory.within_nil n
      | some h => exact ha _ h hx
    · exact (ha k h hk).mono (Nat.le_succ n)
  · exact (ha k h hk).mono (Nat.le_succ n)

/-- No history is longer than there were samples. -/
theorem within_feed (ha : ∀ k, ∀ h ∈ a.series.get? k, h.Within n) (samples : List Sample) :
    ∀ k, ∀ h ∈ (a.feed samples).2.series.get? k, h.Within (n + samples.length) := by
  induction samples generalizing a n with
  | nil => exact ha
  | cons x rest ih =>
    have hrest := ih (within_add ha x)
    rwa [Nat.add_assoc, Nat.add_comm 1] at hrest

end BarArchive

namespace Bars

/-- Every series holds the newest part of its history, and as many samples came too late. -/
structure Holds (b : Bars) (a : BarArchive) : Prop where
  timeframes_eq : b.timeframes = a.timeframes
  dropped_eq : b.dropped = a.dropped
  series : ∀ key tf, Option.Rel (fun s h ↦ s.Holds tf b.capacity h) (b.series.get? (key, tf))
    (a.series.get? (key, tf))

variable {b : Bars} {a : BarArchive}

/-- Bars without samples hold the archive without samples. -/
theorem holds_empty (timeframes : List Timeframe) (capacity : Nat) :
    (empty timeframes capacity).Holds (.empty timeframes) where
  timeframes_eq := rfl
  dropped_eq := rfl
  series _ _ := .none

private theorem rel_getD {α β : Type} {R : α → β → Prop} {o : Option α} {o' : Option β} {a : α}
    {b : β} (h : Option.Rel R o o') (hab : R a b) : R (o.getD a) (o'.getD b) := by
  cases h with
  | none => exact hab
  | some h => exact h

private theorem map_eq_of_rel {α β γ : Type} {R : α → β → Prop} {o : Option α} {o' : Option β}
    {f : α → γ} {g : β → γ} (h : Option.Rel R o o') (hfg : ∀ a b, R a b → f a = g b) :
    o.map f = o'.map g := by
  cases h with
  | none => rfl
  | some h => exact congrArg some (hfg _ _ h)

/-- A sample is answered as the archive answers it, and every series goes on to hold the newest part
of its history. -/
theorem Holds.add (hb : b.Holds a) (hc : slowPeriod ≤ b.capacity) (x : Sample) :
    (b.add x.key x.timeframe x.bar).1 = (a.add x).1 ∧
      (b.add x.key x.timeframe x.bar).2.Holds (a.add x).2 ∧
      (b.add x.key x.timeframe x.bar).2.capacity = b.capacity := by
  rw [Bars.add, BarArchive.add, hb.timeframes_eq]
  by_cases ht : a.timeframes.contains x.timeframe
  · rw [if_pos ht, if_pos ht]
    have hs : ((b.series.get? (x.key, x.timeframe)).getD (.empty x.timeframe b.capacity)).Holds
        x.timeframe b.capacity ((a.series.get? (x.key, x.timeframe)).getD {}) :=
      rel_getD (hb.series x.key x.timeframe)
        (BarSeries.holds_empty x.timeframe (Nat.lt_of_lt_of_le (by decide) hc))
    obtain ⟨hanswer, hadd⟩ := hs.add hc x.bar
    refine ⟨hanswer, ⟨rfl, ?_, fun key tf ↦ ?_⟩, rfl⟩
    · simp only [hanswer, hb.dropped_eq]
    · simp only [Table.get?_insert]
      split
      · next hk =>
        cases hk
        exact .some hadd
      · exact hb.series key tf
  · rw [if_neg ht, if_neg ht]
    exact ⟨rfl, hb, rfl⟩

/-- Samples are answered as the archive answers them, and every series holds the newest part of its
history after them. -/
theorem Holds.feed (hb : b.Holds a) (hc : slowPeriod ≤ b.capacity) (samples : List Sample) :
    (b.feed samples).1 = (a.feed samples).1 ∧ (b.feed samples).2.Holds (a.feed samples).2 ∧
      (b.feed samples).2.capacity = b.capacity := by
  induction samples generalizing b a with
  | nil => exact ⟨rfl, hb, rfl⟩
  | cons x rest ih =>
    obtain ⟨hanswer, hadd, hcapacity⟩ := hb.add hc x
    obtain ⟨hanswers, hfeed, hcapacity'⟩ := ih hadd (hcapacity ▸ hc)
    refine ⟨?_, hfeed, hcapacity'.trans hcapacity⟩
    rw [Bars.feed, BarArchive.feed]
    simp only [hanswer, hanswers]

/-- With room for as many bars as the slow line averages, a series that samples lead to holds the newest
part of its history. -/
theorem holds_of_feed {capacity : Nat} (hc : slowPeriod ≤ capacity) {timeframes : List Timeframe}
    {samples : List Sample} {key : Instrument} {tf : Timeframe} {s : BarSeries} {h : BarHistory}
    (hs : ((empty timeframes capacity).feed samples).2.get? key tf = some s)
    (hh : ((BarArchive.empty timeframes).feed samples).2.series.get? (key, tf) = some h) :
    s.Holds tf capacity h := by
  obtain ⟨-, hholds, hcapacity⟩ := (holds_empty timeframes capacity).feed hc samples
  have hrel := hholds.series key tf
  rw [get?] at hs
  rw [hs, hh, hcapacity] at hrel
  cases hrel with
  | some h => exact h

/-- With room for as many bars as the slow line averages, samples are answered as if nothing were
ever given up, and as many come too late; every series holds just the newest elements of its
history, as many as it has room for, and the whole history where there is room for all samples. -/
theorem newest_of_feed {capacity : Nat} (hc : slowPeriod ≤ capacity) (timeframes : List Timeframe)
    (samples : List Sample) :
    let run := (empty timeframes capacity).feed samples
    let whole := (BarArchive.empty timeframes).feed samples
    run.1 = whole.1 ∧ run.2.dropped = whole.2.dropped ∧
      (∀ key tf, (run.2.get? key tf).map (·.contents) =
        (whole.2.series.get? (key, tf)).map (·.newest capacity)) ∧
      (samples.length ≤ capacity → ∀ key tf, (run.2.get? key tf).map (·.contents) =
        whole.2.series.get? (key, tf)) := by
  intro run whole
  obtain ⟨hanswers, hholds, hcapacity⟩ := (holds_empty timeframes capacity).feed hc samples
  have hnewest : ∀ key tf, (run.2.get? key tf).map (·.contents) =
      (whole.2.series.get? (key, tf)).map (·.newest capacity) := by
    intro key tf
    apply map_eq_of_rel (hholds.series key tf)
    intro s h hs
    rw [hs.contents_eq, hcapacity]
    rfl
  refine ⟨hanswers, hholds.dropped_eq, hnewest, fun hroom key tf ↦ ?_⟩
  have hwithin := BarArchive.within_feed (a := .empty timeframes) (n := 0)
    (fun _ h hk ↦ by cases hk) samples
  rw [hnewest]
  cases hk : whole.2.series.get? (key, tf) with
  | none => rfl
  | some h =>
    have hh := hwithin (key, tf) h hk
    rw [Option.map_some, BarHistory.Within.newest_eq (hh.mono (by omega))]

/-- Bars of a minute, one after another. -/
def minutes (n : Nat) : List Sample := (List.range n).map fun i => sampleAt (Int64.ofNat (60 * i))

/-- How many bars and points of the two lines there are, and when the oldest point of the fast line is
from. -/
def inventory (h : BarHistory) : Nat × Nat × Nat × Option Int64 :=
  (h.bars.length, h.fast.length, h.slow.length, h.fast.head?.map (·.ts))

set_option maxRecDepth 10000 in
private theorem inventory_minutes :
    (((BarArchive.empty [.min1]).feed (minutes 40)).2.series.get? ((sampleAt 0).key, .min1)).map
      (fun h ↦ (inventory h, inventory (h.newest slowPeriod))) =
        some ((40, 34, 11, some 360), (30, 30, 11, some 600)) := by
  rfl

/-- Of forty bars the newest thirty are held, and of their thirty-four averages of seven bars the newest
thirty: the four oldest, those from 360 to 540 seconds, are given up. -/
theorem newest_of_minutes :
    slowPeriod ≤ slowPeriod ∧ ∃ s h,
      ((empty [.min1] slowPeriod).feed (minutes 40)).2.get? (sampleAt 0).key .min1 = some s ∧
      ((BarArchive.empty [.min1]).feed (minutes 40)).2.series.get? ((sampleAt 0).key, .min1) =
        some h ∧
      s.contents = h.newest slowPeriod ∧
      inventory h = (40, 34, 11, some 360) ∧ inventory s.contents = (30, 30, 11, some 600) := by
  obtain ⟨-, -, hnewest, -⟩ := newest_of_feed (Nat.le_refl slowPeriod) [.min1] (minutes 40)
  have hnewest := hnewest (sampleAt 0).key .min1
  obtain ⟨h, hh, hboth⟩ := Option.map_eq_some_iff.mp inventory_minutes
  obtain ⟨hall, hheld⟩ := Prod.mk.inj hboth
  rw [hh, Option.map_some] at hnewest
  obtain ⟨s, hs, hcontents⟩ := Option.map_eq_some_iff.mp hnewest
  exact ⟨Nat.le_refl _, s, h, hs, hh, hcontents, hall, by rw [hcontents, hheld]⟩

end Bars

end TradeDesk
