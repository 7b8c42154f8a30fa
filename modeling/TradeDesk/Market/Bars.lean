import TradeDesk.Indicator.Average
import TradeDesk.Indicator.Graph
import TradeDesk.Market.Record
import TradeDesk.Table

/-!
# Bars

Samples of bars become a bounded series of bars per instrument and timeframe, and every new bar
extends the moving-average lines. A sample less than one timeframe after the newest bar takes its
place, timestamp included; an older one is dropped. The lines change only when a bar is appended.

Times are signed 64-bit words, and the distance of two times wraps around. `Proofs.Market.Distances`
says when it is exact.

Spec: `SPEC_FULL.md` §4.2, and §D for samples out of order. Follows `CandleBuffer` of
`market::candle_buffer`.
-/

namespace TradeDesk

instance : Stamped Candle := ⟨fun c => c.timestamp.toInt⟩

/-- What a sample did to its series. -/
inductive BarUpdate where
  /-- It became a new bar, and the lines were extended. -/
  | appended
  /-- It took the place of the newest bar. -/
  | merged
  /-- It was older than the newest bar. -/
  | dropped
  /-- Its timeframe is not aggregated. -/
  | untracked
  deriving DecidableEq, Repr

/-- The bars of one instrument and timeframe with their lines. -/
structure BarSeries where
  bars : Ring Candle
  graph : Graph

namespace BarSeries

def empty (timeframe : Timeframe) (capacity : Nat) : BarSeries :=
  ⟨.withCapacity capacity, .empty timeframe capacity⟩

/-- The mean close of the newest `period` bars. -/
def average (s : BarSeries) (period : Nat) : Option Float :=
  movingAverage ((s.bars.newest period).map (·.close)) period

/-- The series with its newest bar replaced. -/
def merge (s : BarSeries) (c : Candle) : BarSeries :=
  ⟨s.bars.replaceLast c, s.graph.setLastBar c.timestamp⟩

/-- Extends the lines by the averages after a bar of time `ts` came. The distance, and with it a
crossing, needs both lines. Follows the second half of `CandleBuffer::add_sample`. -/
def extend (g : Graph) (ts : Int64) (fast slow : Option Float) : Graph :=
  let g := match fast with
    | some v => g.pushFast ⟨ts, v⟩
    | none => g
  let g := match slow with
    | some v => g.pushSlow ⟨ts, v⟩
    | none => g
  match fast, slow with
  | some f, some s => (g.pushDiff ⟨ts, (f - s).abs⟩).recordCrossing
  | _, _ => g

/-- The series with a new bar. -/
def append (s : BarSeries) (c : Candle) : BarSeries :=
  let s : BarSeries := ⟨s.bars.push c, s.graph.setLastBar c.timestamp⟩
  ⟨s.bars, extend s.graph c.timestamp (s.average fastPeriod) (s.average slowPeriod)⟩

/-- One sample. The distance to the newest bar is that of words. Follows the comparison in
`CandleBuffer::add_sample`. -/
def add (s : BarSeries) (c : Candle) : BarUpdate × BarSeries :=
  match s.bars.last? with
  | some last =>
    let elapsed := (c.timestamp - last.timestamp).toInt
    if elapsed < 0 then (.dropped, s)
    else if elapsed < s.graph.timeframe.seconds then (.merged, s.merge c)
    else (.appended, s.append c)
  | none => (.appended, s.append c)

end BarSeries

/-- The series of every instrument and aggregated timeframe. -/
structure Bars where
  timeframes : List Timeframe
  capacity : Nat
  series : Table (Instrument × Timeframe) BarSeries := .empty
  /-- How many samples came too late. -/
  dropped : Nat := 0

namespace Bars

/-- No bars yet. -/
def empty (timeframes : List Timeframe) (capacity : Nat) : Bars :=
  { timeframes := timeframes, capacity := capacity }

/-- One sample; the first of an instrument and timeframe starts its series. Follows
`CandleBuffer::add_sample`. -/
def add (b : Bars) (key : Instrument) (tf : Timeframe) (c : Candle) : BarUpdate × Bars :=
  if b.timeframes.contains tf then
    let (update, s) := ((b.series.get? (key, tf)).getD (.empty tf b.capacity)).add c
    (update,
      { b with
        series := b.series.insert (key, tf) s
        dropped := if update = .dropped then b.dropped + 1 else b.dropped })
  else (.untracked, b)

def get? (b : Bars) (key : Instrument) (tf : Timeframe) : Option BarSeries :=
  b.series.get? (key, tf)

/-- The lines of an instrument and timeframe. -/
def graph? (b : Bars) (key : Instrument) (tf : Timeframe) : Option Graph :=
  (b.get? key tf).map (·.graph)

end Bars

end TradeDesk
