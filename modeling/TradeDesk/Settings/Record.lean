import TradeDesk.Error
import TradeDesk.Indicator.Graph
import TradeDesk.Table

/-!
# Settings

What a desk is configured with, the defaults of everything that may be left out, and the conditions
under which settings can be used.

Spec: `SPEC_FULL.md` §B.3. Follows `Settings`, `ExchangeSettings` and `MavgSettings` of `config`.
-/

namespace TradeDesk

open Json

/-- One venue: its contracts, the timeframes aggregated for it, and the face value of a contract for
each symbol, in the quote currency. -/
structure ExchangeSettings where
  name : String
  symbols : List String
  contracts : List String
  timeframes : List Timeframe
  faceValues : Table String Float

/-- The policy of the moving-average strategy. -/
structure MavgSettings where
  exchange : String := "okex"
  symbols : List String := ["ltc_usd", "etc_usd"]
  contracts : List String := ["this_week"]
  signalTimeframe : Timeframe := .min5
  /-- How many bars slopes are measured over. -/
  slopeBars : UInt32 := 3
  fastSlope : Float := 0.1
  slowSlope : Float := 0.04
  diffSlope : Float := 0.03
  /-- How far apart the lines must be for a crossing to count. -/
  minDiff : Float := 1.2
  stopLossRate : Float := -0.1
  takeProfitRate : Float := 0.15
  /-- The bounds of the coin volume of an opening order. -/
  minVol : Float := 0.1
  maxVol : Float := 0.5
  /-- The share of the balance that an opening order commits. -/
  stepRate : Float := 0.01
  marketOrders : Bool := true
  lever : Int32 := 10
  openLimit : UInt32 := 5
  lossLimitStep : UInt32 := 5
  /-- How long, in seconds of tick time, trading rests after too many losses. -/
  cooldownSecs : Int64 := 1200

/-- The settings of a desk. -/
structure Settings where
  /-- How many bars, points and crossings each series keeps. -/
  ringCapacity : UInt64
  /-- How many inbound envelopes may wait. -/
  queueCapacity : UInt64
  maxChecks : UInt32
  logFilter : String
  exchanges : List ExchangeSettings
  mavg : Option MavgSettings

namespace ExchangeSettings

/-- The timeframes of an exchange that names none. -/
def defaultTimeframes : List Timeframe := [.min1, .min5, .min15]

/-- The exchange of settings that name none. -/
def standard : ExchangeSettings where
  name := "okex"
  symbols := ["btc_usd", "ltc_usd", "eth_usd", "etc_usd", "bch_usd"]
  contracts := ["this_week", "next_week", "quarter"]
  timeframes := defaultTimeframes
  faceValues := .ofList
    [("btc_usd", 100.0), ("ltc_usd", 10.0), ("eth_usd", 10.0), ("etc_usd", 10.0),
     ("bch_usd", 10.0)]

end ExchangeSettings

namespace Settings

/-- The settings with nothing configured. -/
def standard : Settings where
  ringCapacity := 10000
  queueCapacity := 4096
  maxChecks := 3
  logFilter := "decision_engine=info"
  exchanges := [.standard]
  mavg := none

/-- The settings of a configured exchange. -/
def exchange? (s : Settings) (name : String) : Option ExchangeSettings :=
  s.exchanges.find? fun e => e.name = name

/-- Every timeframe of any exchange, each once, in the order in which they are first named. -/
def timeframes (s : Settings) : List Timeframe :=
  (s.exchanges.flatMap (·.timeframes)).foldl
    (fun seen tf => if seen.contains tf then seen else seen ++ [tf]) []

/-- The first symbol of an exchange that has no positive face value is a fault. -/
def checkFaceValues (e : ExchangeSettings) : List String → Except SettingsFault Unit
  | [] => .ok ()
  | symbol :: rest =>
    match e.faceValues.get? symbol with
    | some face => if 0.0 < face then checkFaceValues e rest else .error (.faceValue e.name symbol)
    | none => .error (.faceValue e.name symbol)

/-- Each exchange has a name of its own, timeframes, and a face value for each of its symbols. `seen`
are the names that came before. -/
def checkExchanges (seen : List String) : List ExchangeSettings → Except SettingsFault Unit
  | [] => .ok ()
  | e :: rest =>
    if e.name = "" then .error .unnamedExchange
    else if seen.contains e.name then .error (.exchangeTwice e.name)
    else if e.timeframes.isEmpty then .error (.noTimeframes e.name)
    else
      match checkFaceValues e e.symbols with
      | .error fault => .error fault
      | .ok () => checkExchanges (e.name :: seen) rest

/-- The strategy trades on a configured exchange, reads an aggregated timeframe, and has volume
bounds that are not the wrong way round. -/
def checkMavg (s : Settings) (m : MavgSettings) : Except SettingsFault Unit :=
  match s.exchange? m.exchange with
  | none => .error (.strategyExchange m.exchange)
  | some e =>
    if ¬ e.timeframes.contains m.signalTimeframe then
      .error (.strategyTimeframe m.signalTimeframe.label)
    else if m.maxVol < m.minVol then .error .volumeBounds
    else .ok ()

/-- The first fault of settings, if they have one. -/
def check (s : Settings) : Except SettingsFault Unit :=
  if s.ringCapacity.toNat < slowPeriod then .error (.ringCapacity slowPeriod)
  else if s.queueCapacity = 0 then .error .queueCapacity
  else if s.maxChecks = 0 then .error .maxChecks
  else if s.exchanges.isEmpty then .error .noExchange
  else
    match checkExchanges [] s.exchanges with
    | .error fault => .error fault
    | .ok () =>
      match s.mavg with
      | none => .ok ()
      | some m => s.checkMavg m

/-- Whether settings can be used. -/
def validate (s : Settings) : Except DeskError Unit :=
  s.check.mapError DeskError.invalidConfig

end Settings

/-- A table with text keys is an object. Of members with one key the last counts. -/
instance {α : Type} [Codec α] : Codec (Table String α) where
  write t := .object (t.entries.map fun e => (e.1, write e.2))
  read
    | depth + 1, .object members => do
      let entries ← members.mapM fun (k, d) => do some ((← k), (← read depth d))
      some (.ofList entries)
    | _, _ => none

instance : Codec ExchangeSettings where
  write e := .object
    [("name", write e.name), ("symbols", write e.symbols), ("contract_types", write e.contracts),
     ("timeframes", write e.timeframes), ("face_values", write e.faceValues)]
  read := FieldReader.record do
    return {
      name := ← FieldReader.required "name"
      symbols := ← FieldReader.required "symbols"
      contracts := ← FieldReader.required "contract_types"
      timeframes := ← FieldReader.optional "timeframes" ExchangeSettings.defaultTimeframes
      faceValues := ← FieldReader.optional "face_values" .empty }

instance : Codec MavgSettings where
  write m := .object
    [("exchange", write m.exchange), ("symbols", write m.symbols),
     ("contract_types", write m.contracts), ("signal_timeframe", write m.signalTimeframe),
     ("slope_bars", write m.slopeBars), ("fast_slope", write m.fastSlope),
     ("slow_slope", write m.slowSlope), ("diff_slope", write m.diffSlope),
     ("min_diff", write m.minDiff), ("stop_loss_rate", write m.stopLossRate),
     ("take_profit_rate", write m.takeProfitRate), ("min_vol", write m.minVol),
     ("max_vol", write m.maxVol), ("step_rate", write m.stepRate),
     ("market_orders", write m.marketOrders), ("lever", write m.lever),
     ("open_limit", write m.openLimit), ("loss_limit_step", write m.lossLimitStep),
     ("cooldown_secs", write m.cooldownSecs)]
  read := FieldReader.record do
    let base : MavgSettings := {}
    return {
      exchange := ← FieldReader.optional "exchange" base.exchange
      symbols := ← FieldReader.optional "symbols" base.symbols
      contracts := ← FieldReader.optional "contract_types" base.contracts
      signalTimeframe := ← FieldReader.optional "signal_timeframe" base.signalTimeframe
      slopeBars := ← FieldReader.optional "slope_bars" base.slopeBars
      fastSlope := ← FieldReader.optional "fast_slope" base.fastSlope
      slowSlope := ← FieldReader.optional "slow_slope" base.slowSlope
      diffSlope := ← FieldReader.optional "diff_slope" base.diffSlope
      minDiff := ← FieldReader.optional "min_diff" base.minDiff
      stopLossRate := ← FieldReader.optional "stop_loss_rate" base.stopLossRate
      takeProfitRate := ← FieldReader.optional "take_profit_rate" base.takeProfitRate
      minVol := ← FieldReader.optional "min_vol" base.minVol
      maxVol := ← FieldReader.optional "max_vol" base.maxVol
      stepRate := ← FieldReader.optional "step_rate" base.stepRate
      marketOrders := ← FieldReader.optional "market_orders" base.marketOrders
      lever := ← FieldReader.optional "lever" base.lever
      openLimit := ← FieldReader.optional "open_limit" base.openLimit
      lossLimitStep := ← FieldReader.optional "loss_limit_step" base.lossLimitStep
      cooldownSecs := ← FieldReader.optional "cooldown_secs" base.cooldownSecs }

instance : Codec Settings where
  write s := .object
    [("ring_capacity", write s.ringCapacity), ("queue_capacity", write s.queueCapacity),
     ("feedback_max_checks", write s.maxChecks), ("log_filter", write s.logFilter),
     ("exchanges", write s.exchanges), ("mavg", write s.mavg)]
  read := FieldReader.record do
    let base := Settings.standard
    return {
      ringCapacity := ← FieldReader.optional "ring_capacity" base.ringCapacity
      queueCapacity := ← FieldReader.optional "queue_capacity" base.queueCapacity
      maxChecks := ← FieldReader.optional "feedback_max_checks" base.maxChecks
      logFilter := ← FieldReader.optional "log_filter" base.logFilter
      exchanges := ← FieldReader.optional "exchanges" base.exchanges
      mavg := ← FieldReader.optional "mavg" base.mavg }

end TradeDesk
