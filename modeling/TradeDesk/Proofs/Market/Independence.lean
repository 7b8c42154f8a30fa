import TradeDesk.Proofs.Market.BarSpan
import Mathlib.Algebra.BigOperators.Group.Finset.Piecewise

/-!
# Series beside each other

All series of bars stand in one table and share one count of late samples. A series is nevertheless
what its own samples make of it, however those of other series came between them.
-/

namespace TradeDesk

namespace Bars

/-- Two sets of bars that cannot be told apart by samples of one series. -/
structure Agree (b b' : Bars) (k : Instrument × Timeframe) : Prop where
  timeframes_eq : b.timeframes = b'.timeframes
  capacity_eq : b.capacity = b'.capacity
  series_eq : b.series.get? k = b'.series.get? k

variable {b b' : Bars} {k : Instrument × Timeframe} {x : Sample}

/-- A sample of the series is answered alike and makes the same of it. -/
theorem Agree.add (h : b.Agree b' k) (hx : x.series = k) :
    (b.add x.key x.timeframe x.bar).1 = (b'.add x.key x.timeframe x.bar).1 ∧
      (b.add x.key x.timeframe x.bar).2.Agree (b'.add x.key x.timeframe x.bar).2 k := by
  subst hx
  have hs : b.series.get? (x.key, x.timeframe) = b'.series.get? (x.key, x.timeframe) := h.series_eq
  rw [Bars.add, Bars.add, h.timeframes_eq, h.capacity_eq, hs]
  split
  · refine ⟨rfl, rfl, rfl, ?_⟩
    rw [Sample.series, Table.get?_insert_self, Table.get?_insert_self]
  · exact ⟨rfl, h⟩

/-- A sample of another series makes no difference. -/
theorem Agree.add_of_ne (h : b.Agree b' k) (hx : x.series ≠ k) :
    (b.add x.key x.timeframe x.bar).2.Agree b' k := by
  rw [Bars.add]
  split
  · refine ⟨h.timeframes_eq, h.capacity_eq, ?_⟩
    have hk : k ≠ (x.key, x.timeframe) := Ne.symm hx
    rw [Table.get?_insert, if_neg hk]
    exact h.series_eq
  · exact h

/-- Samples of any series are answered, as far as they are of one, as those of the one are alone. -/
theorem Agree.feed (h : b.Agree b' k) (samples : List Sample) :
    (b.feed samples).1.filter (·.1.series = k) = (b'.feed (samples.filter (·.series = k))).1 ∧
      (b.feed samples).2.Agree (b'.feed (samples.filter (·.series = k))).2 k := by
  induction samples generalizing b b' with
  | nil => exact ⟨rfl, h⟩
  | cons x rest ih =>
    by_cases hx : x.series = k
    · obtain ⟨hanswer, hadd⟩ := h.add hx
      obtain ⟨hrest, hfeed⟩ := ih hadd
      rw [List.filter_cons_of_pos (by simpa using hx)]
      refine ⟨?_, hfeed⟩
      simp only [Bars.feed]
      rw [List.filter_cons_of_pos (by simpa using hx), hrest, hanswer]
    · obtain ⟨hrest, hfeed⟩ := ih (h.add_of_ne hx)
      rw [List.filter_cons_of_neg (by simpa using hx)]
      refine ⟨?_, hfeed⟩
      simp only [Bars.feed]
      rw [List.filter_cons_of_neg (by simpa using hx), hrest]

/-- A sample of a timeframe that is not aggregated changes nothing. -/
theorem add_of_not_mem (hx : x.timeframe ∉ b.timeframes) :
    b.add x.key x.timeframe x.bar = (.untracked, b) := by
  rw [add, if_neg]
  rwa [List.contains_iff_mem]

/-! ### Late samples -/

/-- A sample is counted as late when it is answered so. -/
theorem dropped_add (b : Bars) (x : Sample) :
    (b.add x.key x.timeframe x.bar).2.dropped =
      b.dropped + [(b.add x.key x.timeframe x.bar).1].count .dropped := by
  rw [add]
  split
  · simp only [List.count_singleton, beq_iff_eq]
    split
    · rfl
    · rfl
  · rfl

/-- As many samples are counted as late as are answered so. -/
theorem dropped_feed (b : Bars) (samples : List Sample) :
    (b.feed samples).2.dropped =
      b.dropped + ((b.feed samples).1.map Prod.snd).count .dropped := by
  induction samples generalizing b with
  | nil => rfl
  | cons x rest ih =>
    simp only [feed, List.map_cons]
    rw [ih, dropped_add, List.count_singleton, List.count_cons]
    omega

/-- Every sample is answered in its turn. -/
theorem map_fst_feed (b : Bars) (samples : List Sample) :
    (b.feed samples).1.map Prod.fst = samples := by
  induction samples generalizing b with
  | nil => rfl
  | cons x rest ih => exact congrArg (x :: ·) (ih _)

/-- Answers of a kind are counted series by series. -/
theorem count_eq_sum (u : BarUpdate) (answered : List (Sample × BarUpdate))
    {keys : Finset (Instrument × Timeframe)} (hkeys : ∀ a ∈ answered, a.1.series ∈ keys) :
    (answered.map Prod.snd).count u =
      ∑ k ∈ keys, ((answered.filter (·.1.series = k)).map Prod.snd).count u := by
  induction answered with
  | nil => simp
  | cons a rest ih =>
    have hone : ∀ k, (((a :: rest).filter (·.1.series = k)).map Prod.snd).count u =
        ((rest.filter (·.1.series = k)).map Prod.snd).count u +
          if a.1.series = k then [a.2].count u else 0 := by
      intro k
      by_cases hk : a.1.series = k
      · rw [List.filter_cons_of_pos (by simpa using hk), if_pos hk, List.map_cons, List.count_cons,
          List.count_singleton]
      · rw [List.filter_cons_of_neg (by simpa using hk), if_neg hk, Nat.add_zero]
    simp only [hone]
    rw [Finset.sum_add_distrib, ← ih fun a ha ↦ hkeys a (List.mem_cons_of_mem _ ha),
      Finset.sum_ite_eq, if_pos (hkeys a List.mem_cons_self), List.map_cons, List.count_cons,
      List.count_singleton]

/-! ### One series among all -/

/-- However samples of all series come between each other, those of each series are answered as if
they came alone, and its bars and lines are what they are then. The late samples are those of each
series alone, taken together, and a sample of a timeframe that is not aggregated changes nothing. -/
theorem alone_of_feed (timeframes : List Timeframe) (capacity : Nat) (samples : List Sample) :
    let run := (empty timeframes capacity).feed samples
    let alone k := (empty timeframes capacity).feed (samples.filter (·.series = k))
    (∀ key tf, run.1.filter (·.1.series = (key, tf)) = (alone (key, tf)).1 ∧
      run.2.get? key tf = (alone (key, tf)).2.get? key tf) ∧
    (run.2.dropped =
      ∑ k ∈ (samples.map Sample.series).toFinset, ((alone k).1.map Prod.snd).count .dropped) ∧
    ∀ x : Sample, x.timeframe ∉ timeframes →
      run.2.add x.key x.timeframe x.bar = (.untracked, run.2) := by
  intro run alone
  have hagree : ∀ k, run.1.filter (·.1.series = k) = (alone k).1 ∧ run.2.Agree (alone k).2 k :=
    fun k ↦ Agree.feed ⟨rfl, rfl, rfl⟩ samples
  refine ⟨fun key tf ↦ (hagree (key, tf)).imp_right (·.series_eq), ?_, fun x hx ↦ ?_⟩
  · have hkeys : ∀ a ∈ run.1, a.1.series ∈ (samples.map Sample.series).toFinset := by
      intro a ha
      have hmem := List.mem_map_of_mem (f := Prod.fst) ha
      rw [map_fst_feed] at hmem
      exact List.mem_toFinset.mpr (List.mem_map_of_mem hmem)
    have hcount : run.2.dropped = 0 + (run.1.map Prod.snd).count .dropped := dropped_feed _ samples
    rw [hcount, Nat.zero_add, count_eq_sum .dropped run.1 hkeys]
    exact Finset.sum_congr rfl fun k _ ↦ by rw [(hagree k).1]
  · apply add_of_not_mem
    have htimeframes : run.2.timeframes = timeframes := timeframes_feed _ samples
    rwa [htimeframes]

end Bars

end TradeDesk
