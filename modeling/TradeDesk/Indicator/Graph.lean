import TradeDesk.Indicator.Crossing
import TradeDesk.Timeframe

/-!
# Moving-average graphs

The fast and slow lines of one instrument and timeframe, the distance between them, and the crossings
found so far.

Spec: `SPEC_FULL.md` §4.3. Follows `MaGraph` of `indicators::ma_graph`.
-/

namespace TradeDesk

/-- How many bars the fast line averages. -/
def fastPeriod : Nat := 7

/-- How many bars the slow line averages. -/
def slowPeriod : Nat := 30

/-- A derived line. -/
inductive Line where
  | fast
  | slow
  /-- The distance between the two. -/
  | diff
  deriving DecidableEq, Repr

/-- The derived lines of a series of bars. -/
structure Graph where
  timeframe : Timeframe
  fast : Ring TimePoint
  slow : Ring TimePoint
  diff : Ring TimePoint
  crossings : Ring CrossPoint
  /-- The time of the newest bar, merged or appended. -/
  lastBar : Option Int64

namespace Graph

/-- A graph without points. -/
def empty (timeframe : Timeframe) (capacity : Nat) : Graph where
  timeframe := timeframe
  fast := .withCapacity capacity
  slow := .withCapacity capacity
  diff := .withCapacity capacity
  crossings := .withCapacity capacity
  lastBar := none

/-- The points of a line. -/
def line (g : Graph) : Line → Ring TimePoint
  | .fast => g.fast
  | .slow => g.slow
  | .diff => g.diff

def pushFast (g : Graph) (p : TimePoint) : Graph := { g with fast := g.fast.push p }

def pushSlow (g : Graph) (p : TimePoint) : Graph := { g with slow := g.slow.push p }

def pushDiff (g : Graph) (p : TimePoint) : Graph := { g with diff := g.diff.push p }

def setLastBar (g : Graph) (ts : Int64) : Graph := { g with lastBar := some ts }

/-- The crossing of the newest fast and slow segments. Each line needs two points. -/
def newestCrossing? (g : Graph) : Option CrossPoint := do
  let fastEnd ← g.fast.fromEnd? 0
  let fastStart ← g.fast.fromEnd? 1
  let slowEnd ← g.slow.fromEnd? 0
  let slowStart ← g.slow.fromEnd? 1
  Crossing.intersect fastStart fastEnd slowStart slowEnd

/-- Records the crossing of the newest segments, if there is one. Follows
`MaGraph::try_cross_point`. -/
def recordCrossing (g : Graph) : Graph :=
  match g.newestCrossing? with
  | some p => { g with crossings := g.crossings.push p }
  | none => g

/-- The slope between two points in value per bar; zero between points of one time. The times are
words, so their difference wraps around. Follows `MaGraph::slope_factor`. -/
def slope (g : Graph) (head tail : TimePoint) : Float :=
  let elapsed := tail.ts - head.ts
  if elapsed = 0 then 0.0
  else (tail.value - head.value) / (Float.ofInt elapsed.toInt / Float.ofInt g.timeframe.seconds)

/-- The slope of a line between its first and last points from `start` to `stop`. Follows
`MaGraph::slope_in_range`. -/
def slopeIn? (g : Graph) (l : Line) (start stop : Int) : Option Float :=
  ((g.line l).endsWithin? start stop).map fun (head, tail) => g.slope head tail

/-- The crossings from `start` to `stop`, newest first, up to the first that is older. Follows
`MaGraph::crossings_in_range`. -/
def crossingsIn (g : Graph) (start stop : Int) : List CrossPoint :=
  if stop < start then []
  else
    (g.crossings.toList.reverse.takeWhile fun p => decide (start ≤ p.ts.toInt)).filter
      fun p => decide (p.ts.toInt ≤ stop)

def lastCrossing? (g : Graph) : Option CrossPoint := g.crossings.last?

/-- The newest distance between the lines. -/
def lastDiff? (g : Graph) : Option Float := g.diff.last?.map (·.value)

end Graph

end TradeDesk
