import TradeDesk.Mavg.Signal
import TradeDesk.Mavg.Tally

/-!
# The modes of the moving-average strategy

In normal mode the strategy opens on signals where it holds nothing and closes what it holds; in
defense, while the balance is too small to open, it only closes; in shutdown, after too many losses,
it rests until the cool-down has passed. It never adds to what it holds.

Spec: `SPEC_FULL.md` §C.7. Follows `strategy::mavg::states`.
-/

namespace TradeDesk.Mavg

/-- The name of the strategy, under which its requests wait for confirmation. -/
def strategyName : String := "mavg"

/-- The modes of the strategy. -/
inductive ModeName where
  | normal
  | defense
  | shutdown
  deriving DecidableEq, Repr

namespace ModeName

def label : ModeName → String
  | normal => "normal"
  | defense => "defense"
  | shutdown => "shutdown"

instance : ModeId ModeName where
  all := [normal, defense, shutdown]
  mem_all i := by cases i <;> decide
  label := label

end ModeName

/-- What all modes share. -/
structure Data where
  settings : MavgSettings
  tally : Tally
  /-- The time of the tick under decision, in seconds. -/
  clock : Int64

namespace Data

def start (settings : MavgSettings) : Data :=
  ⟨settings, .start settings.symbols settings.lossLimitStep, 0⟩

end Data

/-- A side of a position. -/
inductive Side where
  | long
  | short
  deriving DecidableEq, Repr

namespace Side

/-- That side of a position. -/
def pick (s : Side) (p : Position) : PositionSide :=
  match s with
  | long => p.long
  | short => p.short

def openSignal : Side → Signal
  | long => .buy
  | short => .sell

def closeSignal : Side → Signal
  | long => .sell
  | short => .buy

def openType : Side → OrderType
  | long => .openLong
  | short => .openShort

def closeType : Side → OrderType
  | long => .closeLong
  | short => .closeShort

end Side

/-- The floating profit of a side has reached one of the two rates at which it is closed. -/
def exitReached (s : PositionSide) (settings : MavgSettings) : Bool :=
  s.floatProfitRate ≤ settings.stopLossRate || settings.takeProfitRate ≤ s.floatProfitRate

/-- The order that closes `amount` contracts of a side at market. -/
def closeCommand (o : Outlook) (data : Data) (side : Side) (amount : Int64) : OrderCommand where
  key := o.key
  orderType := side.closeType
  priceType := .market
  price := 0.0
  amount := amount
  vol := 0.0
  lever := data.settings.lever

/-- Closes the whole available amount of a side, if it is one contract at least. Follows
`states::close_side`. -/
def closeSide (d : Desk) (o : Outlook) (data : Data) (side : Side) (held : PositionSide) :
    Desk × Data :=
  let amount := Binary64.floorWord held.available
  if amount ≤ 0 then (d, data)
  else
    match d.placeOrder strategyName (closeCommand o data side amount) with
    | (none, d) => (d, data)
    | (some _, d) =>
      (d, { data with tally := data.tally.noteClose o.key.symbol held.floatProfit })

/-- A volume held between two bounds, which must be in order. A volume that is not a number stays
what it is. -/
def clampVolume (vol low high : Float) : Except Fault Float :=
  if low ≤ high then
    let vol := if vol < low then low else vol
    .ok (if high < vol then high else vol)
  else .error .volumeBounds

/-- The order that opens `amount` contracts of a side, at market or at the last price. -/
def openCommand (tick : Tick) (o : Outlook) (data : Data) (side : Side) (vol : Float)
    (amount : Int64) : OrderCommand where
  key := o.key
  orderType := side.openType
  priceType := if data.settings.marketOrders then .market else .limit
  price := if data.settings.marketOrders then 0.0 else tick.last
  amount := amount
  vol := vol
  lever := data.settings.lever

/-- Opens a side for a share of the balance. The answer says whether an order went out; a volume too
small for one contract sends none. Follows `states::open_side`. -/
def openSide (d : Desk) (tick : Tick) (o : Outlook) (data : Data) (side : Side) :
    Except Fault (Bool × Desk × Data) := do
  let s := data.settings
  let vol ← clampVolume (o.balance * s.stepRate) s.minVol s.maxVol
  match d.contractAmount? o.key.exchange o.key.symbol tick.last vol with
  | none => return (false, d, data)
  | some amount =>
    match d.placeOrder strategyName (openCommand tick o data side vol amount) with
    | (none, d) => return (false, d, data)
    | (some _, d) => return (true, d, { data with tally := data.tally.noteOpen o.key.symbol })

/-- One side in normal mode, after `opens` openings in it. A side with nothing held may be opened; a
held side may be closed. Follows `NormalState::handle_side`. -/
def handleSide (d : Desk) (tick : Tick) (o : Outlook) (data : Data) (p : Position) (opens : UInt32)
    (side : Side) : Except Fault (UInt32 × Desk × Data) := do
  let signal := o.signal data.settings.signalTimeframe
  let held := side.pick p
  if held.amount ≤ 0.0 then
    if signal = side.openSignal ∧ opens < data.settings.openLimit then
      let (opened, d, data) ← openSide d tick o data side
      return (if opened then opens + 1 else opens, d, data)
    else return (opens, d, data)
  else if exitReached held data.settings || signal = side.closeSignal then
    let (d, data) := closeSide d o data side held
    return (opens, d, data)
  else return (opens, d, data)

/-- One side in defense mode: a held side may be closed. -/
def defendSide (d : Desk) (o : Outlook) (data : Data) (p : Position) (side : Side) : Desk × Data :=
  let held := side.pick p
  if 0.0 < held.amount ∧
      (exitReached held data.settings ∨
        o.signal data.settings.signalTimeframe = side.closeSignal) then
    closeSide d o data side held
  else (d, data)

/-- A mode and what it remembers. -/
inductive ModeState where
  /-- How many openings there were since the mode was entered. -/
  | normal (opens : UInt32)
  | defense
  /-- When the mode was entered last, and how often. -/
  | shutdown (since : Int64) (shutdowns : UInt32)
  deriving DecidableEq, Repr

namespace ModeState

def name : ModeState → ModeName
  | normal _ => .normal
  | defense => .defense
  | shutdown _ _ => .shutdown

/-- A normal mode begins to count openings anew; a shutdown notes its time and raises the limit. -/
def enter (m : ModeState) (d : Desk) (data : Data) : ModeState × Desk × Data :=
  match m with
  | normal _ => (normal 0, d, data)
  | defense => (defense, d, data)
  | shutdown _ shutdowns =>
    (shutdown data.clock (shutdowns + 1), d, { data with tally := data.tally.raiseLimit })

/-- Decides in normal mode. Follows `NormalState::decide`. -/
def decideNormal (opens : UInt32) (d : Desk) (tick : Tick) (o : Outlook) (data : Data) :
    Except Fault (ModeName × ModeState × Desk × Data) := do
  if data.tally.limitReached then return (.shutdown, normal opens, d, data)
  match o.validPosition? with
  | none => return (.normal, normal opens, d, data)
  | some p =>
    if o.balance < data.settings.minVol then return (.defense, normal opens, d, data)
    let (opens, d, data) ← handleSide d tick o data p opens .long
    let (opens, d, data) ← handleSide d tick o data p opens .short
    return (.normal, normal opens, d, data)

/-- Decides in defense mode. Follows `DefenseState::decide`. -/
def decideDefense (d : Desk) (o : Outlook) (data : Data) : ModeName × ModeState × Desk × Data :=
  if data.tally.limitReached then (.shutdown, defense, d, data)
  else
    match o.validPosition? with
    | none => (.defense, defense, d, data)
    | some p =>
      let (d, data) := defendSide d o data p .long
      let (d, data) := defendSide d o data p .short
      (if data.settings.minVol ≤ o.balance then .normal else .defense, defense, d, data)

/-- Decides in shutdown mode. The rest so far is a difference of words. Follows
`ShutdownState::decide`. -/
def decideShutdown (since : Int64) (tick : Tick) (data : Data) : ModeName :=
  if data.settings.cooldownSecs ≤ tick.seconds - since then .normal else .shutdown

instance : Mode ModeState ModeName Data where
  id := name
  init m data := (m, data)
  enter := enter
  decide m d tick o data :=
    match m with
    | normal opens => decideNormal opens d tick o data
    | defense => .ok (decideDefense d o data)
    | shutdown since shutdowns =>
      .ok (decideShutdown since tick data, shutdown since shutdowns, d, data)

end ModeState

end TradeDesk.Mavg
