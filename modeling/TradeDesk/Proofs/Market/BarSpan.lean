import TradeDesk.Market.Bars
import TradeDesk.Proofs.Market.Distances
import TradeDesk.Proofs.Series.Ring

/-!
# How long a bar stays open

A series of bars is fed samples and answers each of them. From the answers alone one can tell when
the newest bar was opened and when it was last updated; the laws below say that the next answer is
decided by the last update, and how far that can be from the opening. They hold as long as the times
of the samples are near enough to each other for the distances between them to be words.
-/

namespace TradeDesk

/-- A sample of a bar for one series. -/
structure Sample where
  key : Instrument
  timeframe : Timeframe
  bar : Candle

namespace Sample

/-- The time of a sample in seconds. -/
def time (x : Sample) : Int := x.bar.timestamp.toInt

/-- The series that a sample is for. -/
def series (x : Sample) : Instrument × Timeframe := (x.key, x.timeframe)

/-- The times of the samples for one series, in the order in which they come. -/
def timesOf (key : Instrument) (tf : Timeframe) (samples : List Sample) : List Int64 :=
  (samples.filter (·.series = (key, tf))).map (·.bar.timestamp)

variable {key : Instrument} {tf : Timeframe} {x : Sample}

theorem timesOf_of_series (hx : x.series = (key, tf)) (samples : List Sample) :
    timesOf key tf (x :: samples) = x.bar.timestamp :: timesOf key tf samples := by
  rw [timesOf, List.filter_cons_of_pos (by simpa using hx)]
  rfl

theorem timesOf_of_ne (hx : x.series ≠ (key, tf)) (samples : List Sample) :
    timesOf key tf (x :: samples) = timesOf key tf samples := by
  rw [timesOf, List.filter_cons_of_neg (by simpa using hx)]
  rfl

end Sample

/-- Samples one after another, each with its answer, and the bars after the last of them. -/
def Bars.feed (b : Bars) : List Sample → List (Sample × BarUpdate) × Bars
  | [] => ([], b)
  | x :: rest =>
    let (update, b) := b.add x.key x.timeframe x.bar
    let (answered, b) := b.feed rest
    ((x, update) :: answered, b)

/-- The newest bar of a series as the answers tell it: the time of the sample that opened it, the
time of the last sample it took, and how many it took after the first. -/
structure BarSpan where
  opened : Int
  latest : Int
  merges : Nat
  deriving DecidableEq, Repr

namespace BarSpan

/-- The newest bar after one more answer. -/
def after (bar : Option BarSpan) (time : Int) : BarUpdate → Option BarSpan
  | .appended => some ⟨time, time, 0⟩
  | .merged => bar.map fun b => { b with latest := time, merges := b.merges + 1 }
  | .dropped | .untracked => bar

/-- The newest bar of an instrument and timeframe after one more answered sample. -/
def follow (key : Instrument) (tf : Timeframe) (bar : Option BarSpan) (a : Sample × BarUpdate) :
    Option BarSpan :=
  if a.1.key = key ∧ a.1.timeframe = tf then after bar a.1.time a.2 else bar

theorem follow_of_series {key : Instrument} {tf : Timeframe} {x : Sample}
    (hx : x.series = (key, tf)) (bar : Option BarSpan) (update : BarUpdate) :
    follow key tf bar (x, update) = after bar x.time update :=
  if_pos (Prod.mk.inj hx)

theorem follow_of_ne {key : Instrument} {tf : Timeframe} {x : Sample}
    (hx : x.series ≠ (key, tf)) (bar : Option BarSpan) (update : BarUpdate) :
    follow key tf bar (x, update) = bar :=
  if_neg fun h ↦ hx (Prod.ext h.1 h.2)

/-- The newest bar of an instrument and timeframe after answered samples, oldest first. -/
def ofAnswers (key : Instrument) (tf : Timeframe) (answered : List (Sample × BarUpdate)) :
    Option BarSpan :=
  answered.foldl (follow key tf) none

/-- What becomes of a sample after the newest bar. -/
def verdict (duration : Int) (bar : Option BarSpan) (time : Int) : BarUpdate :=
  match bar with
  | none => .appended
  | some b =>
    if time < b.latest then .dropped
    else if time < b.latest + duration then .merged
    else .appended

/-- A sample is merged when it comes less than the duration after the last update. -/
theorem verdict_eq_merged (duration : Int) (bar : Option BarSpan) (time : Int) :
    verdict duration bar time = .merged ↔
      ∃ b ∈ bar, b.latest ≤ time ∧ time < b.latest + duration := by
  cases bar with
  | none => simp [verdict]
  | some b =>
    simp only [verdict, Option.mem_def, Option.some.injEq, exists_eq_left']
    split
    · next h =>
      constructor
      · intro he
        cases he
      · intro he
        omega
    · next h =>
      split
      · next hd => exact ⟨fun _ ↦ ⟨by omega, hd⟩, fun _ ↦ rfl⟩
      · next hd =>
        constructor
        · intro he
          cases he
        · intro he
          exact absurd he.2 hd

/-- A sample opens a bar when it comes the duration or more after the last update. -/
theorem verdict_eq_appended {duration : Int} (hd : 0 < duration) (bar : Option BarSpan)
    (time : Int) :
    verdict duration bar time = .appended ↔ ∀ b ∈ bar, b.latest + duration ≤ time := by
  cases bar with
  | none => simp [verdict]
  | some b =>
    simp only [verdict, Option.mem_def, Option.some.injEq, forall_eq']
    split
    · next h =>
      constructor
      · intro he
        cases he
      · intro he
        omega
    · next h =>
      split
      · next hl =>
        constructor
        · intro he
          cases he
        · intro he
          omega
      · next hl => exact ⟨fun _ ↦ by omega, fun _ ↦ rfl⟩

end BarSpan

/-! ### Timeframes of graphs -/

namespace Graph

private theorem timeframe_recordCrossing (g : Graph) : g.recordCrossing.timeframe = g.timeframe := by
  rw [recordCrossing]
  split
  · rfl
  · rfl

/-- The lines are extended within one timeframe. -/
theorem timeframe_extend (g : Graph) (ts : Int64) (fast slow : Option Float) :
    (BarSeries.extend g ts fast slow).timeframe = g.timeframe := by
  cases fast with
  | none =>
    cases slow with
    | none => rfl
    | some s => rfl
  | some f =>
    cases slow with
    | none => rfl
    | some s =>
      rw [BarSeries.extend, timeframe_recordCrossing]
      rfl

end Graph

/-! ### One series -/

namespace BarSeries

/-- What a sample can do to a series: nothing, replace the newest bar, or be appended. -/
theorem add_cases (s : BarSeries) (c : Candle) :
    s.add c = (.dropped, s) ∨
    (∃ last, s.bars.last? = some last ∧ s.add c = (.merged, s.merge c)) ∨
    s.add c = (.appended, s.append c) := by
  rw [add]
  cases s.bars.last? with
  | none => exact .inr (.inr rfl)
  | some last =>
    simp only
    split
    · exact .inl rfl
    · split
      · exact .inr (.inl ⟨last, rfl, rfl⟩)
      · exact .inr (.inr rfl)

/-- A time so near the newest bar, if there is one, that the distance is a word. -/
def NearTo (s : BarSeries) (time : Int64) : Prop := ∀ last ∈ s.bars.last?, Near last.timestamp time

/-- Times from which all distances back are words, those to the newest bar and those to each other. -/
structure Reaches (s : BarSeries) (times : List Int64) : Prop where
  nearTo : ∀ time ∈ times, s.NearTo time
  near : times.Pairwise Near

variable {s : BarSeries} {tf : Timeframe} {bar : Option BarSpan} {c : Candle} {time : Int64}
  {times : List Int64}

/-- From an empty series only the distances of the times count. -/
theorem reaches_empty (tf : Timeframe) (capacity : Nat) (h : times.Pairwise Near) :
    (empty tf capacity).Reaches times where
  nearTo time _ last hlast := by
    rw [Ring.last?_eq_getLast?, empty, Ring.toList_withCapacity] at hlast
    cases hlast
  near := h

theorem Reaches.tail (h : s.Reaches (time :: times)) : s.Reaches times where
  nearTo time' htime' := h.nearTo time' (List.mem_cons_of_mem time htime')
  near := (List.pairwise_cons.mp h.near).2

/-- Once the first sample came, what counts are the times of the others. -/
theorem Reaches.add (h : s.Reaches (c.timestamp :: times)) : (s.add c).2.Reaches times := by
  have hnewest : ∀ s' : BarSeries, s'.bars.last? = some c → s'.Reaches times := by
    intro s' hs'
    refine ⟨fun time htime last hlast ↦ ?_, h.tail.near⟩
    cases hs'.symm.trans hlast
    exact (List.pairwise_cons.mp h.near).1 time htime
  rcases s.add_cases c with hadd | ⟨last, hlast, hadd⟩ | hadd
  · rw [hadd]
    exact h.tail
  · rw [hadd]
    exact hnewest _ (Ring.last?_replaceLast s.bars c (Ring.size_ne_zero_of_last? hlast))
  · rw [hadd]
    exact hnewest _ (Ring.last?_push s.bars c)

/-- What a sample near the newest bar does to a series: nothing if it is older, replace the newest
bar if it comes less than a timeframe after it, and be appended otherwise. -/
theorem add_of_near (hnear : s.NearTo c.timestamp) :
    (∃ last, s.bars.last? = some last ∧ stamp c < stamp last ∧ s.add c = (.dropped, s)) ∨
    (∃ last, s.bars.last? = some last ∧ stamp last ≤ stamp c ∧
      stamp c < stamp last + s.graph.timeframe.seconds ∧ s.add c = (.merged, s.merge c)) ∨
    ((∀ last ∈ s.bars.last?, stamp last + s.graph.timeframe.seconds ≤ stamp c) ∧
      s.add c = (.appended, s.append c)) := by
  rw [add]
  cases hlast : s.bars.last? with
  | none =>
    refine .inr (.inr ⟨?_, rfl⟩)
    intro last h
    cases h
  | some last =>
    have helapsed : (c.timestamp - last.timestamp).toInt = stamp c - stamp last :=
      toInt_sub_of_fitsWord (hnear last hlast)
    simp only [helapsed]
    by_cases hearly : stamp c - stamp last < 0
    · exact .inl ⟨last, rfl, by omega, if_pos hearly⟩
    · rw [if_neg hearly]
      by_cases hsoon : stamp c - stamp last < s.graph.timeframe.seconds
      · exact .inr (.inl ⟨last, rfl, by omega, by omega, if_pos hsoon⟩)
      · refine .inr (.inr ⟨?_, if_neg hsoon⟩)
        intro last' h
        cases h
        omega

/-- A series agrees with what the answers tell of its newest bar. -/
structure Shows (s : BarSeries) (tf : Timeframe) (bar : Option BarSpan) : Prop where
  timeframe_eq : s.graph.timeframe = tf
  latest_eq : s.bars.last?.map (fun c ↦ c.timestamp.toInt) = bar.map (·.latest)
  latest_le : ∀ b ∈ bar, b.latest ≤ b.opened + b.merges * (tf.seconds - 1)

/-- A new series shows no bar. -/
theorem shows_empty (tf : Timeframe) (capacity : Nat) : (empty tf capacity).Shows tf none where
  timeframe_eq := rfl
  latest_eq := by
    rw [Ring.last?_eq_getLast?, empty, Ring.toList_withCapacity]
    rfl
  latest_le b h := by cases h

/-- What a sample makes of the series when it is answered so. -/
def answered (s : BarSeries) (c : Candle) : BarUpdate → BarSeries
  | .appended => s.append c
  | .merged => s.merge c
  | .dropped | .untracked => s

private theorem Shows.exists_of_last (h : s.Shows tf bar) {last : Candle}
    (hlast : s.bars.last? = some last) : ∃ b, bar = some b ∧ stamp last = b.latest := by
  have hlatest := h.latest_eq
  rw [hlast] at hlatest
  obtain ⟨b, hb, heq⟩ := Option.map_eq_some_iff.mp hlatest.symm
  exact ⟨b, hb, heq.symm⟩

private theorem Shows.exists_of_bar (h : s.Shows tf bar) {b : BarSpan} (hb : b ∈ bar) :
    ∃ last, s.bars.last? = some last ∧ stamp last = b.latest := by
  have hlatest := h.latest_eq
  rw [Option.mem_def.mp hb] at hlatest
  exact Option.map_eq_some_iff.mp hlatest

/-- A sample is answered, and changes the series, by the newest bar alone. -/
theorem add_eq (h : s.Shows tf bar) (hnear : s.NearTo c.timestamp) :
    s.add c = (BarSpan.verdict tf.seconds bar c.timestamp.toInt,
      s.answered c (BarSpan.verdict tf.seconds bar c.timestamp.toInt)) := by
  have htf := h.timeframe_eq
  rcases add_of_near hnear with ⟨last, hlast, hlt, hadd⟩ | ⟨last, hlast, hle, hlt, hadd⟩ |
    ⟨hlater, hadd⟩
  · obtain ⟨b, rfl, hb⟩ := h.exists_of_last hlast
    have hverdict : BarSpan.verdict tf.seconds (some b) c.timestamp.toInt = .dropped :=
      if_pos (hb ▸ hlt)
    rw [hadd, hverdict]
    rfl
  · obtain ⟨b, rfl, hb⟩ := h.exists_of_last hlast
    have hverdict : BarSpan.verdict tf.seconds (some b) c.timestamp.toInt = .merged :=
      (BarSpan.verdict_eq_merged _ _ _).mpr ⟨b, rfl, hb ▸ hle, hb ▸ htf ▸ hlt⟩
    rw [hadd, hverdict]
    rfl
  · have hverdict : BarSpan.verdict tf.seconds bar c.timestamp.toInt = .appended := by
      refine (BarSpan.verdict_eq_appended tf.seconds_pos _ _).mpr fun b hb ↦ ?_
      obtain ⟨last, hlast, heq⟩ := h.exists_of_bar hb
      rw [← heq, ← htf]
      exact hlater last hlast
    rw [hadd, hverdict]
    rfl

private theorem shows_append (h : s.Shows tf bar) (c : Candle) :
    (s.append c).Shows tf (some ⟨c.timestamp.toInt, c.timestamp.toInt, 0⟩) where
  timeframe_eq := by
    rw [append, Graph.timeframe_extend]
    exact h.timeframe_eq
  latest_eq := by
    rw [append, Ring.last?_push]
    rfl
  latest_le b hb := by
    cases hb
    simp

private theorem shows_merge {b : BarSpan} (h : s.Shows tf (some b)) (c : Candle)
    (hc : c.timestamp.toInt < b.latest + tf.seconds) :
    (s.merge c).Shows tf
      (some { b with latest := c.timestamp.toInt, merges := b.merges + 1 }) where
  timeframe_eq := h.timeframe_eq
  latest_eq := by
    obtain ⟨last, hs, -⟩ := h.exists_of_bar (Option.mem_some_self b)
    rw [merge, Ring.last?_replaceLast _ _ (Ring.size_ne_zero_of_last? hs)]
    rfl
  latest_le b' hb := by
    cases hb
    have hle := h.latest_le b rfl
    show c.timestamp.toInt ≤ b.opened + ↑(b.merges + 1) * (tf.seconds - 1)
    rw [Int.natCast_succ, Int.add_mul]
    omega

/-- A series keeps agreeing with the answers it gives. -/
theorem shows_add (h : s.Shows tf bar) (hnear : s.NearTo c.timestamp) :
    (s.add c).2.Shows tf (BarSpan.after bar c.timestamp.toInt (s.add c).1) := by
  rw [add_eq h hnear]
  cases hv : BarSpan.verdict tf.seconds bar c.timestamp.toInt with
  | appended => exact shows_append h c
  | merged =>
    obtain ⟨b, hb, -, hlt⟩ := (BarSpan.verdict_eq_merged _ _ _).mp hv
    cases hb
    exact shows_merge h c hlt
  | dropped => exact h
  | untracked => exact h

end BarSeries

/-! ### All series -/

namespace Bars

/-- The series of an instrument and timeframe, which is empty before its first sample. -/
def seriesOf (b : Bars) (key : Instrument) (tf : Timeframe) : BarSeries :=
  (b.series.get? (key, tf)).getD (.empty tf b.capacity)

theorem seriesOf_of_get? {b : Bars} {key : Instrument} {tf : Timeframe} {s : BarSeries}
    (h : b.get? key tf = some s) : b.seriesOf key tf = s := by
  rw [seriesOf, show b.series.get? (key, tf) = some s from h, Option.getD_some]

/-- A sample of an aggregated timeframe is answered by its series. -/
theorem fst_add (b : Bars) (key : Instrument) (tf : Timeframe) (c : Candle) :
    (b.add key tf c).1 =
      if tf ∈ b.timeframes then ((b.seriesOf key tf).add c).1 else .untracked := by
  rw [add]
  by_cases ht : tf ∈ b.timeframes
  · rw [if_pos (List.contains_iff_mem.mpr ht), if_pos ht]
    rfl
  · rw [if_neg (fun hc ↦ ht (List.contains_iff_mem.mp hc)), if_neg ht]

/-- A sample of an aggregated timeframe changes its own series and no other. -/
theorem seriesOf_add (b : Bars) (x : Sample) (key : Instrument) (tf : Timeframe) :
    (b.add x.key x.timeframe x.bar).2.seriesOf key tf =
      if tf ∈ b.timeframes ∧ x.series = (key, tf) then ((b.seriesOf key tf).add x.bar).2
      else b.seriesOf key tf := by
  rw [add]
  by_cases ht : x.timeframe ∈ b.timeframes
  · rw [if_pos (List.contains_iff_mem.mpr ht)]
    show ((b.series.insert x.series _).get? (key, tf)).getD _ = _
    rw [Table.get?_insert]
    by_cases hx : x.series = (key, tf)
    · obtain ⟨rfl, rfl⟩ := Prod.mk.inj hx
      rw [if_pos hx.symm, if_pos ⟨ht, hx⟩]
      rfl
    · rw [if_neg (Ne.symm hx), if_neg fun h ↦ hx h.2]
      rfl
  · rw [if_neg (fun hc ↦ ht (List.contains_iff_mem.mp hc)), if_neg]
    rintro ⟨htf, hx⟩
    rw [← (Prod.mk.inj hx).2] at htf
    exact ht htf

/-- A sample leaves the choice of timeframes as it is. -/
theorem timeframes_add (b : Bars) (key : Instrument) (tf : Timeframe) (c : Candle) :
    (b.add key tf c).2.timeframes = b.timeframes := by
  rw [add]
  split
  · rfl
  · rfl

/-- Samples leave the choice of timeframes as it is. -/
theorem timeframes_feed (b : Bars) (samples : List Sample) :
    (b.feed samples).2.timeframes = b.timeframes := by
  induction samples generalizing b with
  | nil => rfl
  | cons x rest ih =>
    rw [feed, ih]
    exact timeframes_add b x.key x.timeframe x.bar

/-- What every near sample keeps of a series, and of what the answers tell of its newest bar, holds
after any samples of which those for the series are near enough to each other. -/
theorem holds_feed {P : BarSeries → Option BarSpan → Prop}
    (hadd : ∀ (s : BarSeries) (bar : Option BarSpan) (c : Candle), s.NearTo c.timestamp → P s bar →
      P (s.add c).2 (BarSpan.after bar c.timestamp.toInt (s.add c).1))
    (b : Bars) (bar : Option BarSpan) {key : Instrument} {tf : Timeframe}
    (h : P (b.seriesOf key tf) bar) {samples : List Sample} {later : List Int64}
    (hreach : (b.seriesOf key tf).Reaches (Sample.timesOf key tf samples ++ later)) :
    P ((b.feed samples).2.seriesOf key tf) ((b.feed samples).1.foldl (BarSpan.follow key tf) bar) ∧
      ((b.feed samples).2.seriesOf key tf).Reaches later := by
  induction samples generalizing b bar with
  | nil => exact ⟨h, hreach⟩
  | cons x rest ih =>
    have hseries := b.seriesOf_add x key tf
    by_cases hx : x.series = (key, tf)
    · rw [Sample.timesOf_of_series hx] at hreach
      obtain ⟨rfl, rfl⟩ := Prod.mk.inj hx
      have hone : P ((b.add x.key x.timeframe x.bar).2.seriesOf x.key x.timeframe)
          (BarSpan.follow x.key x.timeframe bar (x, (b.add x.key x.timeframe x.bar).1)) := by
        rw [BarSpan.follow_of_series hx, hseries, fst_add]
        by_cases ht : x.timeframe ∈ b.timeframes
        · rw [if_pos ⟨ht, hx⟩, if_pos ht]
          exact hadd _ _ _ (hreach.nearTo x.bar.timestamp List.mem_cons_self) h
        · rw [if_neg fun h ↦ ht h.1, if_neg ht]
          exact h
      have hrest : ((b.add x.key x.timeframe x.bar).2.seriesOf x.key x.timeframe).Reaches
          (Sample.timesOf x.key x.timeframe rest ++ later) := by
        rw [hseries]
        split
        · exact hreach.add
        · exact hreach.tail
      exact ih _ _ hone hrest
    · rw [Sample.timesOf_of_ne hx] at hreach
      rw [if_neg fun h ↦ hx h.2] at hseries
      have hone : P ((b.add x.key x.timeframe x.bar).2.seriesOf key tf)
          (BarSpan.follow key tf bar (x, (b.add x.key x.timeframe x.bar).1)) := by
        rw [BarSpan.follow_of_ne hx, hseries]
        exact h
      have hrest : ((b.add x.key x.timeframe x.bar).2.seriesOf key tf).Reaches
          (Sample.timesOf key tf rest ++ later) := by
        rw [hseries]
        exact hreach
      exact ih _ _ hone hrest

/-- A sample is merged exactly when it comes within one timeframe after the last sample that the
newest bar took, and opens a bar exactly when it comes later. A bar that took `n` samples after its
first therefore ends before its opening plus a timeframe, and a timeframe less one second more for
each of the `n`. The distance from each sample of the series back to every earlier one must be a
word. -/
theorem merged_iff_of_feed (timeframes : List Timeframe) (capacity : Nat) (samples : List Sample)
    (key : Instrument) (tf : Timeframe) (c : Candle)
    (hnear : (Sample.timesOf key tf samples ++ [c.timestamp]).Pairwise Near) :
    let run := (empty timeframes capacity).feed samples
    let newest := BarSpan.ofAnswers key tf run.1
    let time := c.timestamp.toInt
    ((run.2.add key tf c).1 = .merged ↔
      tf ∈ timeframes ∧ ∃ bar ∈ newest, bar.latest ≤ time ∧ time < bar.latest + tf.seconds ∧
        time < bar.opened + tf.seconds + bar.merges * (tf.seconds - 1)) ∧
    ((run.2.add key tf c).1 = .appended ↔
      tf ∈ timeframes ∧ ∀ bar ∈ newest, bar.latest + tf.seconds ≤ time) := by
  intro run newest time
  obtain ⟨hs, hreach⟩ : (run.2.seriesOf key tf).Shows tf newest ∧
      (run.2.seriesOf key tf).Reaches [c.timestamp] :=
    holds_feed (P := fun s bar ↦ s.Shows tf bar) (fun _ _ _ hnear hs ↦ BarSeries.shows_add hs hnear)
      (empty timeframes capacity) none (BarSeries.shows_empty tf capacity)
      (BarSeries.reaches_empty tf capacity hnear)
  have ht : run.2.timeframes = timeframes := timeframes_feed _ samples
  have ha := run.2.fst_add key tf c
  rw [ht, BarSeries.add_eq hs (hreach.nearTo _ (List.mem_singleton_self _))] at ha
  rw [ha]
  by_cases hm : tf ∈ timeframes
  · rw [if_pos hm, BarSpan.verdict_eq_merged, BarSpan.verdict_eq_appended tf.seconds_pos]
    constructor
    · constructor
      · rintro ⟨bar, hb, hle, hlt⟩
        have hspread := hs.latest_le bar hb
        exact ⟨hm, bar, hb, hle, hlt, by omega⟩
      · rintro ⟨-, bar, hb, hle, hlt, -⟩
        exact ⟨bar, hb, hle, hlt⟩
    · exact ⟨fun h ↦ ⟨hm, h⟩, fun h ↦ h.2⟩
  · rw [if_neg hm]
    constructor
    · constructor
      · intro h
        cases h
      · intro h
        exact absurd h.1 hm
    · constructor
      · intro h
        cases h
      · intro h
        exact absurd h.1 hm

/-- A bar of one price at a time, for a series of minutes. -/
def sampleAt (time : Int64) : Sample :=
  ⟨⟨"okex", "btc_usd", "quarter"⟩, .min1, ⟨time, 100.0, 100.0, 100.0, 100.0, 0.0, 0.0⟩⟩

/-- A bar of a minute that was opened at 0 and updated at 59 seconds takes a sample at 118 seconds, and
one at 119 seconds opens the next bar. -/
theorem merged_iff_of_seconds :
    let samples := [sampleAt 0, sampleAt 59]
    let run := (empty [.min1] 100).feed samples
    let key := (sampleAt 0).key
    (Sample.timesOf key .min1 samples ++ [118]).Pairwise Near ∧
      (Sample.timesOf key .min1 samples ++ [119]).Pairwise Near ∧
      (run.2.add key .min1 (sampleAt 118).bar).1 = .merged ∧
      (run.2.add key .min1 (sampleAt 119).bar).1 = .appended := by
  intro samples run key
  have hmerged : (Sample.timesOf key .min1 samples ++ [118]).Pairwise Near := by decide
  have happended : (Sample.timesOf key .min1 samples ++ [119]).Pairwise Near := by decide
  have hnewest : BarSpan.ofAnswers key .min1 run.1 = some ⟨0, 59, 1⟩ := by decide
  have htracked : Timeframe.min1 ∈ [Timeframe.min1] := List.mem_singleton_self _
  refine ⟨hmerged, happended, ?_, ?_⟩
  · apply (merged_iff_of_feed [.min1] 100 samples key .min1 (sampleAt 118).bar hmerged).1.mpr
    exact ⟨htracked, ⟨0, 59, 1⟩, hnewest, by decide, by decide, by decide⟩
  · apply (merged_iff_of_feed [.min1] 100 samples key .min1 (sampleAt 119).bar happended).2.mpr
    refine ⟨htracked, fun bar hbar ↦ ?_⟩
    cases hnewest.symm.trans hbar
    decide

/-- A distance that is no word wraps around: the bar of the last second takes a sample of the first. -/
example :
    let b := ((empty [.min1] 100).feed [sampleAt Int64.maxValue]).2
    (b.add (sampleAt 0).key .min1 (sampleAt Int64.minValue).bar).1 = .merged := by
  decide

/-- A bar of a minute takes a sample that comes almost two minutes after it was opened. -/
theorem merged_after_timeframe :
    let run := (empty [.min1] 100).feed [sampleAt 0, sampleAt 59]
    let x := sampleAt 118
    ∃ bar ∈ BarSpan.ofAnswers x.key x.timeframe run.1,
      (run.2.add x.key x.timeframe x.bar).1 = .merged ∧
        bar.opened + x.timeframe.seconds ≤ x.time := by
  refine ⟨⟨0, 59, 1⟩, ?_, ?_, ?_⟩
  · decide
  · decide
  · decide

end Bars

end TradeDesk
