import TradeDesk.Market.Quotes
import TradeDesk.Proofs.Market.BarSpan

/-!
# Market data that comes twice

A sample of a bar or a quote that comes again right away finds itself as the newest: a bar is merged
into itself, and a quote takes its own place. A sample that came too late comes too late again.
-/

namespace TradeDesk

namespace Graph

private theorem lastBar_recordCrossing (g : Graph) : g.recordCrossing.lastBar = g.lastBar := by
  rw [recordCrossing]
  split
  · rfl
  · rfl

/-- Extending the lines leaves the time of the newest bar alone. -/
theorem lastBar_extend (g : Graph) (ts : Int64) (fast slow : Option Float) :
    (BarSeries.extend g ts fast slow).lastBar = g.lastBar := by
  cases fast with
  | none =>
    cases slow with
    | none => rfl
    | some s => rfl
  | some f =>
    cases slow with
    | none => rfl
    | some s =>
      rw [BarSeries.extend, lastBar_recordCrossing]
      rfl

end Graph

namespace BarSeries

/-- The newest bar of a series is a sample, and its lines know that. -/
structure EndsWith (s : BarSeries) (c : Candle) : Prop where
  last?_eq : s.bars.last? = some c
  lastBar_eq : s.graph.lastBar = some c.timestamp

variable {s : BarSeries} {c : Candle}

/-- A new bar is the newest. -/
theorem endsWith_append (s : BarSeries) (c : Candle) : (s.append c).EndsWith c where
  last?_eq := Ring.last?_push s.bars c
  lastBar_eq := by
    rw [append, Graph.lastBar_extend]
    rfl

/-- A sample that took the place of the newest bar is the newest. -/
theorem endsWith_merge {last : Candle} (h : s.bars.last? = some last) (c : Candle) :
    (s.merge c).EndsWith c where
  last?_eq := Ring.last?_replaceLast s.bars c (Ring.size_ne_zero_of_last? h)
  lastBar_eq := rfl

/-- The newest bar is merged into itself. -/
theorem EndsWith.add_eq (h : s.EndsWith c) : s.add c = (.merged, s) := by
  have hmerge : s.merge c = s := by
    rw [merge, Ring.replaceLast_of_last? h.last?_eq, Graph.setLastBar, ← h.lastBar_eq]
  have hpos := s.graph.timeframe.seconds_pos
  rw [add, h.last?_eq]
  simp only [Int64.sub_self, Int64.toInt_zero, Int.lt_irrefl, if_false, hpos, if_true, hmerge]

/-- A sample ends up as the newest bar, or is dropped and changes nothing. -/
theorem endsWith_add (s : BarSeries) (c : Candle) :
    (s.add c).2.EndsWith c ∨ s.add c = (.dropped, s) := by
  rcases s.add_cases c with hadd | ⟨last, hlast, hadd⟩ | hadd
  · exact .inr hadd
  · rw [hadd]
    exact .inl (endsWith_merge hlast c)
  · rw [hadd]
    exact .inl (endsWith_append s c)

/-- A sample that comes again changes nothing. -/
theorem add_add (s : BarSeries) (c : Candle) : ((s.add c).2.add c).2 = (s.add c).2 := by
  cases s.endsWith_add c with
  | inl h => rw [h.add_eq]
  | inr h => rw [h, h]

end BarSeries

/-- A sample that comes again changes nothing but how many came too late. -/
theorem Bars.add_add (b : Bars) (key : Instrument) (tf : Timeframe) (c : Candle) :
    ∃ dropped, ((b.add key tf c).2.add key tf c).2 = { (b.add key tf c).2 with dropped := dropped } := by
  by_cases htf : tf ∈ b.timeframes
  · simp [add, htf, BarSeries.add_add]
  · refine ⟨b.dropped, ?_⟩
    simp [add, htf]

/-- A record that comes again changes nothing. -/
theorem Quotes.storeLatest_storeLatest {α : Type} (timestamp : α → UInt64)
    (held : Table Instrument α) (key : Instrument) (a : α) :
    storeLatest timestamp (storeLatest timestamp held key a) key a =
      storeLatest timestamp held key a := by
  cases h : held.get? key with
  | none => simp [storeLatest, h]
  | some current =>
    by_cases hlt : timestamp a < timestamp current
    · simp [storeLatest, h, hlt]
    · simp [storeLatest, h, hlt]

end TradeDesk
