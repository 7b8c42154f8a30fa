import TradeDesk.Instrument
import TradeDesk.Timeframe

/-!
# Market records

What venues report about an instrument: ticks, trade prints, index prices, bars and order books. A
record's `timestamp` counts milliseconds; a stored bar's counts seconds.

Spec: `SPEC_FULL.md` §3. Follows the records of `models`, and `CandleMsg` and `DepthMsg` of
`protocol`.
-/

namespace TradeDesk

open Json

/-- Whole seconds of a millisecond timestamp, as a signed word. Follows `Tick::timestamp_secs` and
`CandleMsg::to_candle`. -/
def wholeSeconds (millis : UInt64) : Int64 := Int64.ofNat (millis / 1000).toNat

/-- The latest quote of an instrument. -/
structure Tick where
  key : Instrument
  timestamp : UInt64
  /-- Volume inside the tick. -/
  vol : Float
  high : Float
  low : Float
  /-- Volume and extremes of the last day. -/
  dayVol : Float
  dayHigh : Float
  dayLow : Float
  last : Float
  bid : Float
  ask : Float
  bidVol : Float
  askVol : Float

namespace Tick

/-- The tick's time in whole seconds. -/
def seconds (t : Tick) : Int64 := wholeSeconds t.timestamp

instance : Codec Tick where
  write t := .object <| t.key.members ++
    [("timestamp", write t.timestamp), ("vol", write t.vol), ("high", write t.high),
     ("low", write t.low), ("day_vol", write t.dayVol), ("day_high", write t.dayHigh),
     ("day_low", write t.dayLow), ("last", write t.last), ("bid", write t.bid),
     ("ask", write t.ask), ("bid_vol", write t.bidVol), ("ask_vol", write t.askVol)]
  read := FieldReader.keyedRecord
    ["timestamp", "vol", "high", "low", "day_vol", "day_high", "day_low", "last", "bid", "ask",
     "bid_vol", "ask_vol"] do
      return {
        key := ← Instrument.fields
        timestamp := ← FieldReader.required "timestamp"
        vol := ← FieldReader.optional "vol" 0.0
        high := ← FieldReader.optional "high" 0.0
        low := ← FieldReader.optional "low" 0.0
        dayVol := ← FieldReader.optional "day_vol" 0.0
        dayHigh := ← FieldReader.optional "day_high" 0.0
        dayLow := ← FieldReader.optional "day_low" 0.0
        last := ← FieldReader.required "last"
        bid := ← FieldReader.optional "bid" 0.0
        ask := ← FieldReader.optional "ask" 0.0
        bidVol := ← FieldReader.optional "bid_vol" 0.0
        askVol := ← FieldReader.optional "ask_vol" 0.0 }

end Tick

/-- Which side took liquidity in a public trade. -/
inductive TradeSide where
  | buy
  | sell
  deriving DecidableEq, Repr

namespace TradeSide

def label : TradeSide → String
  | buy => "buy"
  | sell => "sell"

instance : Codec TradeSide where
  write s := .text s.label
  read := Codec.readName [("buy", buy), ("sell", sell)]

end TradeSide

/-- One public trade. -/
structure TradePrint where
  key : Instrument
  timestamp : UInt64
  price : Float
  amount : Float
  side : TradeSide

instance : Codec TradePrint where
  write t := .object <| t.key.members ++
    [("timestamp", write t.timestamp), ("price", write t.price), ("amount", write t.amount),
     ("side", write t.side)]
  read := FieldReader.keyedRecord ["timestamp", "price", "amount", "side"] do
    return {
      key := ← Instrument.fields
      timestamp := ← FieldReader.required "timestamp"
      price := ← FieldReader.required "price"
      amount := ← FieldReader.required "amount"
      side := ← FieldReader.required "side" }

/-- A venue's index price of an underlying. -/
structure IndexQuote where
  key : Instrument
  timestamp : UInt64
  index : Float

instance : Codec IndexQuote where
  write q := .object <| q.key.members ++
    [("timestamp", write q.timestamp), ("index", write q.index)]
  read := FieldReader.keyedRecord ["timestamp", "index"] do
    return {
      key := ← Instrument.fields
      timestamp := ← FieldReader.required "timestamp"
      index := ← FieldReader.required "index" }

/-- A stored bar; its timestamp counts seconds. -/
structure Candle where
  timestamp : Int64
  opening : Float
  high : Float
  low : Float
  close : Float
  volume : Float
  amount : Float

instance : Codec Candle where
  write c := .object
    [("timestamp", write c.timestamp), ("open", write c.opening), ("high", write c.high),
     ("low", write c.low), ("close", write c.close), ("volume", write c.volume),
     ("amount", write c.amount)]
  read := FieldReader.record do
    return {
      timestamp := ← FieldReader.required "timestamp"
      opening := ← FieldReader.required "open"
      high := ← FieldReader.required "high"
      low := ← FieldReader.required "low"
      close := ← FieldReader.required "close"
      volume := ← FieldReader.required "volume"
      amount := ← FieldReader.required "amount" }

/-- One bar update of a venue, possibly for a bar that has not closed yet. -/
structure CandleUpdate where
  key : Instrument
  timeframe : Timeframe
  timestamp : UInt64
  opening : Float
  high : Float
  low : Float
  close : Float
  volume : Float
  amount : Float

namespace CandleUpdate

/-- The update as a stored bar. -/
def candle (u : CandleUpdate) : Candle :=
  ⟨wholeSeconds u.timestamp, u.opening, u.high, u.low, u.close, u.volume, u.amount⟩

instance : Codec CandleUpdate where
  write u := .object <| u.key.members ++
    [("timeframe", write u.timeframe), ("timestamp", write u.timestamp),
     ("open", write u.opening), ("high", write u.high), ("low", write u.low),
     ("close", write u.close), ("volume", write u.volume), ("amount", write u.amount)]
  read := FieldReader.keyedRecord
    ["timeframe", "timestamp", "open", "high", "low", "close", "volume", "amount"] do
      return {
        key := ← Instrument.fields
        timeframe := ← FieldReader.required "timeframe"
        timestamp := ← FieldReader.required "timestamp"
        opening := ← FieldReader.required "open"
        high := ← FieldReader.required "high"
        low := ← FieldReader.required "low"
        close := ← FieldReader.required "close"
        volume := ← FieldReader.optional "volume" 0.0
        amount := ← FieldReader.optional "amount" 0.0 }

end CandleUpdate

/-- An order book: price and size of each level. -/
structure Depth where
  key : Instrument
  timestamp : UInt64
  bids : List (Float × Float)
  asks : List (Float × Float)

instance : Codec Depth where
  write d := .object <| d.key.members ++
    [("timestamp", write d.timestamp), ("bids", write d.bids), ("asks", write d.asks)]
  read := FieldReader.keyedRecord ["timestamp", "bids", "asks"] do
    return {
      key := ← Instrument.fields
      timestamp := ← FieldReader.required "timestamp"
      bids := ← FieldReader.optional "bids" []
      asks := ← FieldReader.optional "asks" [] }

end TradeDesk
