import TradeDesk.Mavg.Modes
import TradeDesk.Strategy.Registry

/-!
# The moving-average strategy

It follows every pair of its symbols and contracts on one exchange, and waits while its orders are
unconfirmed.

Spec: `SPEC_FULL.md` §C.7. Follows `MavgStrategy` of `strategy::mavg`.
-/

namespace TradeDesk

namespace Mavg

/-- The machine of the strategy. -/
abbrev StrategyMachine := Machine ModeName ModeState Watch Data

/-- The registrations that make up the machine. -/
def blueprint (settings : MavgSettings) : Blueprint ModeName ModeState Watch :=
  let b : Blueprint ModeName ModeState Watch := { name := strategyName }
  ((((b.mode (.normal 0)).mode .defense).mode (.shutdown 0 0)).observer .position
    |>.observer (.signal (.ofSettings settings))).initialMode .normal

end Mavg

/-- The moving-average strategy. -/
structure MavgStrategy where
  exchange : String
  follows : List Instrument
  machine : Mavg.StrategyMachine

namespace MavgStrategy

/-- The strategy that settings describe. -/
def ofSettings (settings : MavgSettings) : Except DeskError MavgStrategy := do
  let follows := settings.symbols.flatMap fun symbol =>
    settings.contracts.map fun contract => ⟨settings.exchange, symbol, contract⟩
  return ⟨settings.exchange, follows, ← (Mavg.blueprint settings).build (.start settings)⟩

def tally (s : MavgStrategy) : Mavg.Tally := s.machine.data.tally

/-- Asks for the position of every instrument. -/
def queryPositions (d : Desk) (keys : List Instrument) : Desk :=
  keys.foldl (fun d key => (d.queryPosition key).2) d

/-- Asks for the account and every followed position, if the exchange has a trader. Follows
`MavgStrategy::query_all`. -/
def refresh (s : MavgStrategy) (d : Desk) : Desk :=
  match d.queryAccount s.exchange with
  | (none, d) => d
  | (some _, d) => queryPositions d s.follows

/-- With unconfirmed requests pending, everything is asked for again and the tick is passed over.
Follows `MavgStrategy::check_feedback`. -/
def review (s : MavgStrategy) (d : Desk) : Bool × Desk :=
  match d.reviewPending Mavg.strategyName with
  | ([], d) => (true, d)
  | (_ :: _, d) => (false, s.refresh d)

/-- A tick of a followed instrument goes to the machine. Follows `MavgStrategy::on_tick`. -/
def onTick (s : MavgStrategy) (d : Desk) (tick : Tick) : Except Fault (MavgStrategy × Desk) := do
  if s.follows.contains tick.key then
    let machine := { s.machine with data := { s.machine.data with clock := tick.seconds } }
    let (_, machine, d) ← machine.step d tick
    return ({ s with machine := machine }, d)
  else return (s, d)

instance : Strategy MavgStrategy where
  name _ := Mavg.strategyName
  init s d := (s, s.refresh d)
  review s d :=
    let (ready, d) := s.review d
    (ready, s, d)
  onTick := onTick
  release s d := (s, d)

end MavgStrategy

end TradeDesk
