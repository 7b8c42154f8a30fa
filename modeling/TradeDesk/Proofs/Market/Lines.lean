import TradeDesk.Proofs.Market.BarOrder
import TradeDesk.Proofs.Market.Repetition

/-!
# What a bar adds to the lines

A bar that is appended gives a point to each line that there are enough bars for. The three lines begin
with different bars, but a bar that extends the slow line extends the other two as well, and all of
them give up as much. Counted from the newest point, the points of the three lines therefore belong to
the same bars for as long as the slow line goes back, and each distance is that of the two points
beside it.
-/

namespace TradeDesk

/-- How many bars there must be for a line to have a point. -/
def Line.period : Line → Nat
  | .fast => fastPeriod
  | .slow => slowPeriod
  | .diff => slowPeriod

namespace BarSeries

/-! ### What a bar adds to the lines -/

/-- The mean close of the newest bars, at most `period` of them, added up from the newest on. -/
def mean (s : BarSeries) (period : Nat) : Float :=
  let newest := s.bars.toList.reverse.take period
  (newest.map (·.close)).foldl (· + ·) 0.0 / Float.ofNat newest.length

/-- There is an average where there are as many bars, and it is the mean of their closes. -/
theorem average_eq (s : BarSeries) {period : Nat} (h : 0 < period) :
    s.average period = if period ≤ s.bars.size then some (s.mean period) else none := by
  have hlength : (s.bars.toList.reverse.take period).length = min period s.bars.size := by
    rw [List.length_take, List.length_reverse, Ring.length_toList]
  rw [average, movingAverage, Ring.newest_eq, ← List.map_take, List.take_take, Nat.min_self,
    List.length_map, hlength]
  by_cases henough : period ≤ s.bars.size
  · rw [if_neg (by omega), if_pos henough, mean, hlength, Nat.min_eq_left henough]
  · rw [if_pos (by omega), if_neg henough]

/-- What the bars that are held give to a line: the fast and slow lines the means of as many bars as
they average, and the third line how far these are apart. -/
def lineValue (s : BarSeries) : Line → Float
  | .fast => s.mean fastPeriod
  | .slow => s.mean slowPeriod
  | .diff => (s.mean fastPeriod - s.mean slowPeriod).abs

/-- The averages give a line its value once there are as many bars as it needs. -/
theorem value?_average (s : BarSeries) (l : Line) :
    l.value? (s.average fastPeriod) (s.average slowPeriod) =
      if l.period ≤ s.bars.size then some (s.lineValue l) else none := by
  rw [s.average_eq (by decide), s.average_eq (by decide)]
  cases l with
  | fast => rfl
  | slow => rfl
  | diff =>
    show _ = if slowPeriod ≤ s.bars.size then _ else _
    by_cases hslow : slowPeriod ≤ s.bars.size
    · have hfast : fastPeriod ≤ s.bars.size := Nat.le_trans (by decide) hslow
      rw [if_pos hslow, if_pos hslow, if_pos hfast]
      rfl
    · rw [if_neg hslow, if_neg hslow]
      cases (if fastPeriod ≤ s.bars.size then some (s.mean fastPeriod) else none) with
      | none => rfl
      | some fast => rfl

/-- A new bar appends a point of its time to each line for which there are enough bars now. -/
theorem line_append (s : BarSeries) (c : Candle) (l : Line) :
    (s.append c).graph.line l =
      if l.period ≤ (s.append c).bars.size then
        (s.graph.line l).push ⟨c.timestamp, (s.append c).lineValue l⟩
      else s.graph.line l := by
  have hextend := (s.graph.setLastBar c.timestamp).line_extend c.timestamp
    ((s.append c).average fastPeriod) ((s.append c).average slowPeriod) l
  have hbefore : (s.graph.setLastBar c.timestamp).line l = s.graph.line l := by
    cases l with
    | fast => rfl
    | slow => rfl
    | diff => rfl
  rw [value?_average, hbefore] at hextend
  show (extend _ _ _ _).line l = _
  by_cases henough : l.period ≤ (s.append c).bars.size
  · rw [if_pos henough] at hextend ⊢
    exact hextend
  · rw [if_neg henough] at hextend ⊢
    exact hextend

/-- With enough bars for the slow line, a new bar extends every line. -/
theorem line_append_of_enough {s : BarSeries} {c : Candle}
    (h : slowPeriod ≤ (s.append c).bars.size) (l : Line) :
    (s.append c).graph.line l =
      (s.graph.line l).push ⟨c.timestamp, (s.append c).lineValue l⟩ := by
  have hl : l.period ≤ slowPeriod := by cases l <;> decide
  rw [line_append, if_pos (Nat.le_trans hl h)]

/-- With too few bars for a line, a new bar leaves it as it is. -/
theorem line_append_of_few {s : BarSeries} {c : Candle} {l : Line}
    (h : (s.append c).bars.size < l.period) : (s.append c).graph.line l = s.graph.line l := by
  rw [line_append, if_neg (Nat.not_le.mpr h)]

/-! ### Aligned lines -/

/-- The lines of a series and its newest bar belong together. The slow line and the distances are as
long as each other, and as far as they go back, the points that are equally far from the newest end
carry one time, and the distance is that of the two others. -/
structure Aligned (s : BarSeries) : Prop where
  lastBar_eq : s.graph.lastBar = s.bars.last?.map (·.timestamp)
  capacity_eq : ∀ l, (s.graph.line l).capacity = s.bars.capacity
  enough : s.graph.slow.size ≠ 0 → slowPeriod ≤ s.bars.size
  size_eq : s.graph.diff.size = s.graph.slow.size
  points : ∀ i < s.graph.slow.size, ∃ fast slow diff, s.graph.fast.fromEnd? i = some fast ∧
    s.graph.slow.fromEnd? i = some slow ∧ s.graph.diff.fromEnd? i = some diff ∧
    slow.ts = fast.ts ∧ diff.ts = fast.ts ∧ diff.value = (fast.value - slow.value).abs

variable {s : BarSeries} {c : Candle}

theorem aligned_empty (tf : Timeframe) (capacity : Nat) : (empty tf capacity).Aligned where
  lastBar_eq := by
    rw [Ring.last?_eq_getLast?, empty, Ring.toList_withCapacity]
    rfl
  capacity_eq l := by
    cases l with
    | fast => rfl
    | slow => rfl
    | diff => rfl
  enough h := absurd rfl h
  size_eq := rfl
  points i hi := absurd hi (Nat.not_lt_zero i)

/-- While there are too few bars for it, there is no slow line. -/
theorem Aligned.size_slow (h : s.Aligned) (c : Candle)
    (hfew : (s.append c).bars.size < slowPeriod) : s.graph.slow.size = 0 := by
  by_cases hzero : s.graph.slow.size = 0
  · exact hzero
  · have henough := h.enough hzero
    have hbars : (s.append c).bars.size = (s.bars.push c).size := rfl
    rw [hbars, Ring.size_push] at hfew
    split at hfew <;> omega

/-- A new bar that extends the slow line extends all three, and one that does not leaves the slow line
and the distances as they are. -/
theorem Aligned.append (h : s.Aligned) (c : Candle) : (s.append c).Aligned := by
  have hends : (s.append c).EndsWith c := endsWith_append s c
  have hlast : (s.append c).graph.lastBar = (s.append c).bars.last?.map (·.timestamp) := by
    rw [hends.lastBar_eq, hends.last?_eq]
    rfl
  have hcapacity : ∀ l, ((s.append c).graph.line l).capacity = (s.append c).bars.capacity := by
    intro l
    have hbars : (s.append c).bars.capacity = s.bars.capacity := Ring.capacity_push s.bars c
    rw [line_append, hbars, ← h.capacity_eq l]
    split
    · exact Ring.capacity_push _ _
    · rfl
  by_cases henough : slowPeriod ≤ (s.append c).bars.size
  · have hfast : (s.append c).graph.fast = s.graph.fast.push _ := line_append_of_enough henough .fast
    have hslow : (s.append c).graph.slow = s.graph.slow.push _ := line_append_of_enough henough .slow
    have hdiff : (s.append c).graph.diff = s.graph.diff.push _ := line_append_of_enough henough .diff
    refine ⟨hlast, hcapacity, fun _ ↦ henough, ?_, fun i hi ↦ ?_⟩
    · have hcapacities : s.graph.diff.capacity = s.graph.slow.capacity :=
        (h.capacity_eq .diff).trans (h.capacity_eq .slow).symm
      rw [hdiff, hslow, Ring.size_push, Ring.size_push, hcapacities, h.size_eq]
    · cases i with
      | zero =>
        rw [hfast, hslow, hdiff]
        exact ⟨_, _, _, Ring.last?_push _ _, Ring.last?_push _ _, Ring.last?_push _ _, rfl, rfl, rfl⟩
      | succ i =>
        have hcapacity' : s.graph.slow.capacity = s.bars.capacity := h.capacity_eq .slow
        have hle : s.graph.slow.size ≤ s.graph.slow.capacity := s.graph.slow.size_le
        rw [hslow, Ring.size_push] at hi
        obtain ⟨hroom, hi⟩ : i + 1 < s.bars.capacity ∧ i < s.graph.slow.size := by
          split at hi <;> omega
        obtain ⟨fast, slow, diff, hfast', hslow', hdiff', halike⟩ := h.points i hi
        refine ⟨fast, slow, diff, ?_, ?_, ?_, halike⟩
        · rw [hfast, Ring.fromEnd?_push_succ _ _ ((h.capacity_eq .fast).symm ▸ hroom), hfast']
        · rw [hslow, Ring.fromEnd?_push_succ _ _ ((h.capacity_eq .slow).symm ▸ hroom), hslow']
        · rw [hdiff, Ring.fromEnd?_push_succ _ _ ((h.capacity_eq .diff).symm ▸ hroom), hdiff']
  · have hfew := Nat.lt_of_not_le henough
    have hslow : (s.append c).graph.slow = s.graph.slow := line_append_of_few (l := .slow) hfew
    have hdiff : (s.append c).graph.diff = s.graph.diff := line_append_of_few (l := .diff) hfew
    have hzero : (s.append c).graph.slow.size = 0 := by
      rw [hslow]
      exact h.size_slow c hfew
    refine ⟨hlast, hcapacity, fun hne ↦ absurd hzero hne, ?_, fun i hi ↦ ?_⟩
    · rw [hdiff, hslow]
      exact h.size_eq
    · rw [hzero] at hi
      exact absurd hi (Nat.not_lt_zero i)

/-- Replacing the newest bar leaves the lines as they are. -/
theorem Aligned.merge (h : s.Aligned) {last : Candle} (hlast : s.bars.last? = some last)
    (c : Candle) : (s.merge c).Aligned := by
  have hends : (s.merge c).EndsWith c := endsWith_merge hlast c
  refine ⟨?_, ?_, ?_, h.size_eq, h.points⟩
  · rw [hends.lastBar_eq, hends.last?_eq]
    rfl
  · intro l
    rw [BarSeries.merge, Ring.capacity_replaceLast]
    exact h.capacity_eq l
  · intro hne
    rw [BarSeries.merge, Ring.size_replaceLast]
    exact h.enough hne

/-- Every sample keeps the lines aligned. -/
theorem Aligned.add (h : s.Aligned) (c : Candle) : (s.add c).2.Aligned := by
  rcases s.add_cases c with hadd | ⟨last, hlast, hadd⟩ | hadd
  · rw [hadd]
    exact h
  · rw [hadd]
    exact h.merge hlast c
  · rw [hadd]
    exact h.append c

/-- Points of the fast and slow lines that are equally far from the newest end carry one time. -/
theorem Aligned.ts_eq (h : s.Aligned) {i : Nat} {fast slow : TimePoint}
    (hfast : s.graph.fast.fromEnd? i = some fast) (hslow : s.graph.slow.fromEnd? i = some slow) :
    fast.ts = slow.ts := by
  obtain ⟨fast', slow', _, hfast', hslow', _, hts, _⟩ := h.points i (Ring.lt_size_of_fromEnd? hslow)
  cases hfast.symm.trans hfast'
  cases hslow.symm.trans hslow'
  exact hts.symm

end BarSeries

end TradeDesk
