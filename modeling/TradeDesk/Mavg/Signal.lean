import TradeDesk.Settings.Record
import TradeDesk.Strategy.Machine

/-!
# The moving-average signal

Steep slopes of both lines in one direction confirm a trend. With a crossing on record the crossing
must agree with the trend and the lines must be apart; without one, the lines must be drawing apart.
A turning point, where the fast line runs against the slow one while the gap is closing, overrides
the trend.

Spec: `SPEC_FULL.md` §C.7. Follows `strategy::mavg::handlers`.
-/

namespace TradeDesk.Mavg

/-- How steep slopes must be, and how far apart the lines. -/
structure SignalLimits where
  fastSlope : Float
  slowSlope : Float
  diffSlope : Float
  minDiff : Float

/-- What the lines look like. -/
structure Reading where
  fastSlope : Float
  slowSlope : Float
  diffSlope : Float
  /-- The newest distance between the lines. -/
  gap : Float
  lastCrossing : Option CrossDirection

/-- What is closer to zero than this is flat. -/
def flatness : Float := 1e-7

/-- The signal of a reading. Follows `handlers::classify`. -/
def classify (r : Reading) (limits : SignalLimits) : Signal :=
  if r.fastSlope.abs < flatness || r.slowSlope.abs < flatness || r.gap.abs < flatness then .hold
  else
    let rising := limits.fastSlope ≤ r.fastSlope && limits.slowSlope < r.slowSlope
    let falling := r.fastSlope ≤ -limits.fastSlope && r.slowSlope < -limits.slowSlope
    match r.lastCrossing with
    | none =>
      if r.diffSlope ≤ limits.diffSlope then .hold
      else if rising then .buy
      else if falling then .sell
      else .hold
    | some direction =>
      let apart : Bool := limits.minDiff ≤ r.gap
      let trend : Signal :=
        if falling && direction = .aboveToBelow && apart then .sell
        else if rising && direction = .belowToAbove && apart then .buy
        else .hold
      let closing : Bool := r.diffSlope < limits.diffSlope
      if limits.fastSlope < r.fastSlope && r.slowSlope < 0.0 && closing then .buy
      else if r.fastSlope < -limits.fastSlope && 0.0 < r.slowSlope && closing then .sell
      else trend

/-- Reads the moving-average lines of one timeframe. -/
structure SignalReader where
  timeframe : Timeframe
  slopeBars : UInt32
  limits : SignalLimits

namespace SignalReader

def ofSettings (s : MavgSettings) : SignalReader where
  timeframe := s.signalTimeframe
  slopeBars := s.slopeBars
  limits := ⟨s.fastSlope, s.slowSlope, s.diffSlope, s.minDiff⟩

/-- The lines of an instrument over the bars that slopes are measured over. Time is that of the
bars. There is no reading until both lines have a slope; the gap's slope may be missing. The range
begins at a word, so it wraps around where the series is too early for it. Follows
`MaSignalHandler::read`. -/
def read? (r : SignalReader) (d : Desk) (key : Instrument) : Option Reading := do
  let graph ← d.bars.graph? key r.timeframe
  let stop ← graph.lastBar
  let start := stop - .ofNat r.slopeBars.toNat * .ofInt r.timeframe.seconds
  let fastSlope ← graph.slopeIn? .fast start.toInt stop.toInt
  let slowSlope ← graph.slopeIn? .slow start.toInt stop.toInt
  let gap ← graph.lastDiff?
  return {
    fastSlope := fastSlope
    slowSlope := slowSlope
    diffSlope := (graph.slopeIn? .diff start.toInt stop.toInt).getD 0.0
    gap := gap
    lastCrossing := graph.lastCrossing?.map (·.direction) }

/-- The signal of an instrument; without a reading, hold. -/
def signal (r : SignalReader) (d : Desk) (key : Instrument) : Signal :=
  match r.read? d key with
  | some reading => classify reading r.limits
  | none => .hold

end SignalReader

/-- What the strategy observes. -/
inductive Watch where
  /-- The cached position and the balance of the symbol. -/
  | position
  /-- The moving-average signal of one timeframe. -/
  | signal (reader : SignalReader)

namespace Watch

/-- The position and balance of an instrument. Follows `PositionHandler::on_tick`. -/
def seePosition (d : Desk) (tick : Tick) (o : Outlook) : Outlook :=
  let o := { o with position := d.ledger.positions.get? tick.key }
  match d.ledger.money.get? (tick.key.exchange, tick.key.symbol) with
  | some m => { o with balance := m.balance, rights := m.rights }
  | none => o

/-- The signal of a timeframe. Follows `MaSignalHandler::on_tick`. -/
def seeSignal (r : SignalReader) (d : Desk) (o : Outlook) : Outlook :=
  { o with signals := o.signals.insert r.timeframe (r.signal d o.key) }

instance : Observer Watch where
  name
    | position => "position"
    | signal _ => "ma_signal"
  observe w d tick o :=
    match w with
    | position => (w, d, seePosition d tick o)
    | signal r => (w, d, seeSignal r d o)

end Watch

end TradeDesk.Mavg
