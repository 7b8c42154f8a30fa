import TradeDesk.Json.Codec

/-!
# Timeframes

The bar durations that the desk aggregates.

Follows `Timeframe` of `models`.
-/

namespace TradeDesk

open Json

/-- A bar duration. -/
inductive Timeframe where
  | min1
  | min3
  | min5
  | min15
  | min30
  | hour1
  | day1
  deriving DecidableEq, Repr, Inhabited

namespace Timeframe

/-- The duration in seconds. -/
def seconds : Timeframe → Int
  | min1 => 60
  | min3 => 3 * 60
  | min5 => 5 * 60
  | min15 => 15 * 60
  | min30 => 30 * 60
  | hour1 => 60 * 60
  | day1 => 24 * 60 * 60

/-- The short name of the duration. -/
def label : Timeframe → String
  | min1 => "1m"
  | min3 => "3m"
  | min5 => "5m"
  | min15 => "15m"
  | min30 => "30m"
  | hour1 => "1h"
  | day1 => "1d"

/-- Every timeframe, shortest first. -/
def all : List Timeframe := [min1, min3, min5, min15, min30, hour1, day1]

/-- Every timeframe by name. -/
def names : List (String × Timeframe) := all.map fun tf => (tf.label, tf)

instance : Codec Timeframe where
  write tf := .text tf.label
  read := Codec.readName names

end Timeframe

end TradeDesk
