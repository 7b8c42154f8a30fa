import TradeDesk.Settings.Record
import TradeDesk.Settings.Tree

/-!
# Settings from trees

A setting is read from whatever scalar its source could write: a number from text or a switch, text
from a number or a switch, a switch from a number or a word. A number out of range is an error, and
so is a scalar that stands for nothing of the kind. Names of timeframes are read in either case.

These are the conversions of the settings library that `Settings::load` of `config` calls.
-/

namespace TradeDesk

/-- A type whose values can be read from a tree. -/
class Lenient (α : Type) where
  read : Tree → Option α

namespace Lenient

/-- The words for true and false. -/
def switch? (s : String) : Option Bool :=
  let word := Letters.small s
  if word = "true" || word = "on" || word = "yes" then some true
  else if word = "false" || word = "off" || word = "no" then some false
  else none

instance : Lenient Bool where
  read
    | .bool b => some b
    | .int n => some (decide (n ≠ 0))
    | .float x => some (x != 0.0)
    | .text s => if s = "1" then some true else if s = "0" then some false else switch? s
    | _ => none

instance : Lenient String where
  read
    | .text s => some s
    | .bool b => some (if b then "true" else "false")
    | .int n => some (toString n)
    | .float x => some (String.ofList (Binary64.plain x))
    | _ => none

instance : Lenient Float where
  read
    | .float x => some x
    | .int n => some (Float.ofInt n)
    | .bool b => some (if b then 1.0 else 0.0)
    | .text s =>
      match switch? s with
      | some b => some (if b then 1.0 else 0.0)
      | none => Scalar.real? s.toList
    | _ => none

/-- An integer held to a range that an infinity is at the end of; a NaN counts as zero. -/
def rounded (low high : Int) (x : Float) : Int :=
  match Dyadic.ofFloat? x with
  | some d => max low (min high d.round)
  | none => if x.isNaN then 0 else if x < 0.0 then low else high

/-- An integer from `low` to `high`. A real number is rounded, halves away from zero, and held to the
range. -/
def integerIn (low high : Int) (t : Tree) : Option Int :=
  let n? : Option Int := match t with
    | .int n => some n
    | .float x => some (rounded low high x)
    | .bool b => some (if b then 1 else 0)
    | .text s =>
      match switch? s with
      | some b => some (if b then 1 else 0)
      | none => Scalar.integer? s.toList
    | _ => none
  n?.filter fun n => decide (low ≤ n ∧ n ≤ high)

/-- An integer of 64 bits with a sign. -/
def signed (t : Tree) : Option Int := integerIn Int64.minValue.toInt Int64.maxValue.toInt t

/-- An integer of 64 bits without a sign; text with a minus in front is none. -/
def unsigned (t : Tree) : Option Int :=
  match t with
  | .text s => if s.startsWith "-" then none else integerIn 0 (UInt64.size - 1) t
  | t => integerIn 0 (UInt64.size - 1) t

instance : Lenient UInt64 where
  read t := (unsigned t).map fun n => UInt64.ofNat n.toNat

instance : Lenient UInt32 where
  read t :=
    let word := (unsigned t).filter fun n : Int => decide (n < UInt32.size)
    word.map fun n => UInt32.ofNat n.toNat

instance : Lenient Int64 where
  read t := (signed t).map Int64.ofInt

instance : Lenient Int32 where
  read t :=
    let word := (signed t).filter fun n =>
      decide (Int32.minValue.toInt ≤ n ∧ n ≤ Int32.maxValue.toInt)
    word.map Int32.ofInt

/-- A timeframe by its name, or by the one key of a table. -/
instance : Lenient Timeframe where
  read
    | .text s => Json.Codec.named? Timeframe.names (Letters.small s)
    | .table [(key, _)] => Json.Codec.named? Timeframe.names (Letters.small key)
    | _ => none

instance {α : Type} [Lenient α] : Lenient (List α) where
  read
    | .array items => items.mapM read
    | _ => none

instance {α : Type} [Lenient α] : Lenient (Table String α) where
  read
    | .table es => do
      return .ofList (← es.mapM fun (key, t) => do return (key, ← read t))
    | _ => none

instance {α : Type} [Lenient α] : Lenient (Option α) where
  read
    | .null => some none
    | t => (read t).map some

end Lenient

/-- Reads some of the settings of a record: entries by name, or items in order. -/
abbrev SettingReader (α : Type) := StateT Tree Option α

namespace SettingReader

/-- The next setting: the entry of that name, or the next item. -/
def next (name : String) : SettingReader (Option Tree) := do
  match ← get with
  | .array (t :: rest) =>
    set (Tree.array rest)
    return some t
  | t => return t.get? name

/-- A setting that must be there. -/
def required {α : Type} [Lenient α] (name : String) : SettingReader α := do
  match ← next name with
  | none => failure
  | some t => (Lenient.read t : Option α)

/-- A setting with a value for when it is missing. -/
def optional {α : Type} [Lenient α] (name : String) (default : α) : SettingReader α := do
  match ← next name with
  | none => return default
  | some t => (Lenient.read t : Option α)

/-- Reads a record from a table or an array. Entries of other names are ignored, and so are items
after the last setting. -/
def record {α : Type} (settings : SettingReader α) (t : Tree) : Option α :=
  match t with
  | .table _ | .array _ => (settings t).map (·.1)
  | _ => none

end SettingReader

open SettingReader (required optional)

instance : Lenient ExchangeSettings where
  read := SettingReader.record do
    return {
      name := ← required "name"
      symbols := ← required "symbols"
      contracts := ← required "contract_types"
      timeframes := ← optional "timeframes" ExchangeSettings.defaultTimeframes
      faceValues := ← optional "face_values" .empty }

instance : Lenient MavgSettings where
  read := SettingReader.record do
    let base : MavgSettings := {}
    return {
      exchange := ← optional "exchange" base.exchange
      symbols := ← optional "symbols" base.symbols
      contracts := ← optional "contract_types" base.contracts
      signalTimeframe := ← optional "signal_timeframe" base.signalTimeframe
      slopeBars := ← optional "slope_bars" base.slopeBars
      fastSlope := ← optional "fast_slope" base.fastSlope
      slowSlope := ← optional "slow_slope" base.slowSlope
      diffSlope := ← optional "diff_slope" base.diffSlope
      minDiff := ← optional "min_diff" base.minDiff
      stopLossRate := ← optional "stop_loss_rate" base.stopLossRate
      takeProfitRate := ← optional "take_profit_rate" base.takeProfitRate
      minVol := ← optional "min_vol" base.minVol
      maxVol := ← optional "max_vol" base.maxVol
      stepRate := ← optional "step_rate" base.stepRate
      marketOrders := ← optional "market_orders" base.marketOrders
      lever := ← optional "lever" base.lever
      openLimit := ← optional "open_limit" base.openLimit
      lossLimitStep := ← optional "loss_limit_step" base.lossLimitStep
      cooldownSecs := ← optional "cooldown_secs" base.cooldownSecs }

instance : Lenient Settings where
  read := SettingReader.record do
    let base := Settings.standard
    return {
      ringCapacity := ← optional "ring_capacity" base.ringCapacity
      queueCapacity := ← optional "queue_capacity" base.queueCapacity
      maxChecks := ← optional "feedback_max_checks" base.maxChecks
      logFilter := ← optional "log_filter" base.logFilter
      exchanges := ← optional "exchanges" base.exchanges
      mavg := ← optional "mavg" base.mavg }

end TradeDesk
