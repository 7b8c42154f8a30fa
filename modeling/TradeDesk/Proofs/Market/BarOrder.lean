import TradeDesk.Proofs.Market.BarSpan
import TradeDesk.Proofs.Series.Search

/-!
# The order of bars and lines

A sample opens a bar when it comes a timeframe or more after the newest one, and a sample that is
merged moves the newest bar forward. The bars of a series are therefore a timeframe apart at least,
and so are the points of its lines, which stay at the times at which their bars were opened. The
stretches of a line that are looked for by halving are those that looking at every point would find.
-/

namespace TradeDesk

/-! ### What is related in a ring -/

namespace Ring

variable {α : Type} {R : α → α → Prop} {r : Ring α} {a : α}

/-- An element to which all others are related can be appended. -/
theorem pairwise_push (h : r.toList.Pairwise R) (ha : ∀ b ∈ r.toList, R b a) :
    (r.push a).toList.Pairwise R := by
  rw [toList_push, List.pairwise_append]
  refine ⟨?_, List.pairwise_singleton R a, ?_⟩
  · split
    · exact h
    · exact h.tail
  · intro b hb x hx
    rw [List.mem_singleton.mp hx]
    split at hb
    · exact ha b hb
    · exact ha b (List.mem_of_mem_tail hb)

/-- The newest element can give way to one to which at least as many are related. -/
theorem pairwise_replaceLast {last : α} (h : r.toList.Pairwise R) (hlast : r.last? = some last)
    (ha : ∀ b, R b last → R b a) : (r.replaceLast a).toList.Pairwise R := by
  rw [toList_replaceLast r a (size_ne_zero_of_last? hlast)]
  rw [last?_eq_getLast?] at hlast
  obtain ⟨earlier, hsplit⟩ := List.getLast?_eq_some_iff.mp hlast
  rw [hsplit, List.pairwise_append] at h
  rw [hsplit, List.dropLast_concat, List.pairwise_append]
  refine ⟨h.1, List.pairwise_singleton R a, ?_⟩
  intro b hb x hx
  rw [List.mem_singleton.mp hx]
  exact ha b (h.2.2 b hb last List.mem_cons_self)

end Ring

/-! ### What a bar adds to the lines -/

/-- The value that two averages give to a line. -/
def Line.value? (fast slow : Option Float) : Line → Option Float
  | .fast => fast
  | .slow => slow
  | .diff => do return ((← fast) - (← slow)).abs

namespace Graph

/-- Recording a crossing leaves the lines as they are. -/
theorem line_recordCrossing (g : Graph) (l : Line) : g.recordCrossing.line l = g.line l := by
  rw [recordCrossing]
  split
  · cases l <;> rfl
  · rfl

/-- A new bar appends one point of its time to each line that the averages give a value. -/
theorem line_extend (g : Graph) (ts : Int64) (fast slow : Option Float) (l : Line) :
    (BarSeries.extend g ts fast slow).line l =
      match l.value? fast slow with
      | some v => (g.line l).push ⟨ts, v⟩
      | none => g.line l := by
  cases fast with
  | none => cases slow <;> cases l <;> rfl
  | some f =>
    cases slow with
    | none => cases l <;> rfl
    | some s =>
      rw [BarSeries.extend, line_recordCrossing]
      cases l <;> rfl

end Graph

/-! ### One series -/

namespace BarSeries

/-- One comes a timeframe before the other at least. -/
def Apart {α : Type} [Stamped α] (tf : Timeframe) (a b : α) : Prop :=
  stamp a + tf.seconds ≤ stamp b

/-- Times that are a timeframe apart are in order. -/
theorem inOrder_of_apart {α : Type} [Stamped α] {tf : Timeframe} {r : Ring α}
    (h : r.toList.Pairwise (Apart tf)) : r.InOrder := by
  apply List.Pairwise.imp _ h
  intro a b hab
  have := tf.seconds_pos
  exact Int.le_trans (by omega) hab

/-- The bars of a series, oldest first, are a timeframe apart at least, and so are the points of
every line. The lines end with the newest bar or before it. -/
structure Spaced (tf : Timeframe) (s : BarSeries) : Prop where
  timeframe_eq : s.graph.timeframe = tf
  bars : s.bars.toList.Pairwise (Apart tf)
  lines : ∀ l, (s.graph.line l).toList.Pairwise (Apart tf)
  behind : ∀ l, ∀ p ∈ (s.graph.line l).toList, ∃ c ∈ s.bars.last?, stamp p ≤ stamp c

variable {s : BarSeries} {tf : Timeframe} {c : Candle}

theorem spaced_empty (tf : Timeframe) (capacity : Nat) : Spaced tf (empty tf capacity) := by
  have hline : ∀ l, ((empty tf capacity).graph.line l).toList = [] := by
    intro l
    cases l <;> exact Ring.toList_withCapacity capacity
  refine ⟨rfl, ?_, ?_, ?_⟩
  · rw [empty, Ring.toList_withCapacity]
    exact List.Pairwise.nil
  · intro l
    rw [hline]
    exact List.Pairwise.nil
  · intro l p hp
    rw [hline] at hp
    cases hp

private theorem apart_of_last {α : Type} [Stamped α] {r : Ring α} {a : α}
    (h : r.toList.Pairwise (Apart tf)) (hlast : ∀ last ∈ r.last?, Apart tf last a) :
    ∀ b ∈ r.toList, Apart tf b a := by
  intro b hb
  cases hr : r.last? with
  | none =>
    rw [Ring.last?_eq_getLast?, List.getLast?_eq_none_iff] at hr
    rw [hr] at hb
    cases hb
  | some last =>
    have ha : stamp last + tf.seconds ≤ stamp a := hlast last hr
    rw [Ring.last?_eq_getLast?] at hr
    obtain ⟨earlier, hsplit⟩ := List.getLast?_eq_some_iff.mp hr
    rw [hsplit, List.pairwise_append] at h
    rw [hsplit, List.mem_append, List.mem_singleton] at hb
    cases hb with
    | inl hb =>
      have hapart : stamp b + tf.seconds ≤ stamp last := h.2.2 b hb last List.mem_cons_self
      have := tf.seconds_pos
      show stamp b + tf.seconds ≤ stamp a
      omega
    | inr hb =>
      rw [hb]
      exact ha

/-- A bar that comes a timeframe after the newest one keeps the distances. -/
theorem Spaced.append (h : Spaced tf s)
    (hc : ∀ last ∈ s.bars.last?, stamp last + tf.seconds ≤ stamp c) :
    Spaced tf (s.append c) where
  timeframe_eq := by
    rw [BarSeries.append, Graph.timeframe_extend]
    exact h.timeframe_eq
  bars := Ring.pairwise_push h.bars (apart_of_last h.bars hc)
  lines l := by
    rw [BarSeries.append, Graph.line_extend]
    split
    · apply Ring.pairwise_push (h.lines l)
      intro p hp
      obtain ⟨last, hlast, hle⟩ := h.behind l p hp
      have := hc last hlast
      show stamp p + tf.seconds ≤ stamp c
      omega
    · exact h.lines l
  behind l p hp := by
    refine ⟨c, Ring.last?_push s.bars c, ?_⟩
    have hold : p ∈ (s.graph.line l).toList → stamp p ≤ stamp c := by
      intro hp
      obtain ⟨last, hlast, hle⟩ := h.behind l p hp
      have := hc last hlast
      have := tf.seconds_pos
      omega
    rw [BarSeries.append, Graph.line_extend] at hp
    split at hp
    · cases Ring.eq_or_mem_of_mem_push hp with
      | inl heq =>
        rw [heq]
        exact Int.le_refl _
      | inr hmem => exact hold hmem
    · exact hold hp

/-- Moving the newest bar forward keeps the distances. -/
theorem Spaced.merge (h : Spaced tf s) {last : Candle} (hlast : s.bars.last? = some last)
    (hc : stamp last ≤ stamp c) : Spaced tf (s.merge c) where
  timeframe_eq := h.timeframe_eq
  bars := by
    apply Ring.pairwise_replaceLast h.bars hlast
    intro b hb
    exact Int.le_trans hb hc
  lines := h.lines
  behind l p hp := by
    obtain ⟨newest, hnewest, hle⟩ := h.behind l p hp
    rw [hlast] at hnewest
    cases hnewest
    exact ⟨c, Ring.last?_replaceLast _ _ (Ring.size_ne_zero_of_last? hlast), Int.le_trans hle hc⟩

/-- Every sample near the newest bar keeps the distances. -/
theorem Spaced.add (h : Spaced tf s) (hnear : s.NearTo c.timestamp) : Spaced tf (s.add c).2 := by
  rcases add_of_near hnear with ⟨last, -, -, hadd⟩ | ⟨last, hlast, hle, -, hadd⟩ | ⟨hlater, hadd⟩
  · rw [hadd]
    exact h
  · rw [hadd]
    exact h.merge hlast hle
  · rw [hadd]
    rw [h.timeframe_eq] at hlater
    exact h.append hlater

end BarSeries

/-! ### All series -/

namespace Bars

private theorem of_add {P : Timeframe → BarSeries → Prop} {b : Bars}
    (hempty : ∀ tf, P tf (.empty tf b.capacity))
    (hadd : ∀ tf s c, P tf s → P tf (BarSeries.add s c).2)
    (h : ∀ key tf s, b.get? key tf = some s → P tf s) (x : Sample) :
    (b.add x.key x.timeframe x.bar).2.capacity = b.capacity ∧
      ∀ key tf s, (b.add x.key x.timeframe x.bar).2.get? key tf = some s → P tf s := by
  rw [add]
  by_cases ht : b.timeframes.contains x.timeframe
  · rw [if_pos ht]
    refine ⟨rfl, ?_⟩
    intro key tf s hs
    rw [get?, Table.get?_insert] at hs
    split at hs
    · next hkey =>
      cases hkey
      cases hs
      apply hadd
      cases hold : b.series.get? (x.key, x.timeframe) with
      | none => exact hempty x.timeframe
      | some old => exact h x.key x.timeframe old hold
    · exact h key tf s hs
  · rw [if_neg ht]
    exact ⟨rfl, h⟩

/-- What an empty series satisfies and every sample keeps is true of all series that samples can
lead to. -/
theorem of_feed {P : Timeframe → BarSeries → Prop} {capacity : Nat}
    (hempty : ∀ tf, P tf (.empty tf capacity))
    (hadd : ∀ tf s c, P tf s → P tf (BarSeries.add s c).2) (timeframes : List Timeframe)
    (samples : List Sample) {key : Instrument} {tf : Timeframe} {s : BarSeries}
    (h : ((empty timeframes capacity).feed samples).2.get? key tf = some s) : P tf s := by
  have hfeed : ∀ (samples : List Sample) (b : Bars), b.capacity = capacity →
      (∀ key tf s, b.get? key tf = some s → P tf s) →
      ∀ key tf s, (b.feed samples).2.get? key tf = some s → P tf s := by
    intro samples
    induction samples with
    | nil => exact fun _ _ hb ↦ hb
    | cons x rest ih =>
      intro b hcapacity hb
      have hx := of_add (hcapacity ▸ hempty) hadd hb x
      exact ih _ (hx.1.trans hcapacity) hx.2
  apply hfeed samples (empty timeframes capacity) rfl _ key tf s h
  intro key tf s hs
  cases hs

/-- In a ring in the order of times the ends of a stretch of time are the first and last of the
elements within it, if there are two at least. The rings of bars and of line points that samples lead
to, where the distances between the samples are words, are in that order, a timeframe apart at least,
so that the slope of a line over a stretch of time is the slope between the first and last of its
points within it. -/
theorem ends_within_stretch :
    (∀ (α : Type) [Stamped α] (r : Ring α), r.InOrder → ∀ start stop : Int,
      r.endsWithin? start stop = scan r.toList start stop) ∧
    ∀ (timeframes : List Timeframe) (capacity : Nat) (samples : List Sample) (key : Instrument)
      (tf : Timeframe) (s : BarSeries),
      (Sample.timesOf key tf samples).Pairwise Near →
      ((empty timeframes capacity).feed samples).2.get? key tf = some s →
        s.bars.toList.Pairwise (BarSeries.Apart tf) ∧ s.bars.InOrder ∧
        ∀ l, (s.graph.line l).toList.Pairwise (BarSeries.Apart tf) ∧ (s.graph.line l).InOrder ∧
          ∀ start stop, s.graph.slopeIn? l start stop =
            (scan (s.graph.line l).toList start stop).map fun (head, tail) =>
              s.graph.slope head tail := by
  constructor
  · intro α _ r h start stop
    exact Ring.endsWithin?_eq h start stop
  · intro timeframes capacity samples key tf s hnear hs
    have hreach : ((empty timeframes capacity).seriesOf key tf).Reaches
        (Sample.timesOf key tf samples ++ []) := by
      rw [List.append_nil]
      exact BarSeries.reaches_empty tf capacity hnear
    have hspaced : BarSeries.Spaced tf s := by
      rw [← seriesOf_of_get? hs]
      exact (holds_feed (P := fun s _ ↦ BarSeries.Spaced tf s) (fun _ _ _ hnear h ↦ h.add hnear)
        (empty timeframes capacity) none (BarSeries.spaced_empty tf capacity) hreach).1
    refine ⟨hspaced.bars, BarSeries.inOrder_of_apart hspaced.bars, ?_⟩
    intro l
    have horder := BarSeries.inOrder_of_apart (hspaced.lines l)
    refine ⟨hspaced.lines l, horder, ?_⟩
    intro start stop
    rw [Graph.slopeIn?, Ring.endsWithin?_eq horder]

/-- Of three bars of a minute, for two of which there is room, the newest two are the ends of the time
of all three. -/
theorem ends_within_stretch_of_three :
    let samples := [sampleAt 0, sampleAt 60, sampleAt 150]
    let b := ((empty [.min1] 2).feed samples).2
    (Sample.timesOf (sampleAt 0).key .min1 samples).Pairwise Near ∧
      ∃ s, b.get? (sampleAt 0).key .min1 = some s ∧ s.bars.InOrder ∧
        s.bars.endsWithin? 0 150 = scan s.bars.toList 0 150 ∧
        s.bars.endsWithin? 0 150 = some ((sampleAt 60).bar, (sampleAt 150).bar) := by
  intro samples b
  have hnear : (Sample.timesOf (sampleAt 0).key .min1 samples).Pairwise Near := by decide
  obtain ⟨s, hs, hbars⟩ := Option.map_eq_some_iff.mp
    (show (b.get? (sampleAt 0).key .min1).map (·.bars.toList) =
      some [(sampleAt 60).bar, (sampleAt 150).bar] from rfl)
  have horder : s.bars.InOrder :=
    (ends_within_stretch.2 [.min1] 2 samples _ .min1 s hnear hs).2.1
  have hscan := ends_within_stretch.1 Candle s.bars horder 0 150
  refine ⟨hnear, s, hs, horder, hscan, ?_⟩
  rw [hscan, hbars]
  rfl

end Bars

end TradeDesk
