import TradeDesk.Json.Codec
import TradeDesk.Series.Ring

/-!
# Points

One sample of a line.

Follows `TimePoint` of `series::ring`.
-/

namespace TradeDesk

open Json

/-- A value at a time in seconds. -/
structure TimePoint where
  ts : Int64
  value : Float

namespace TimePoint

instance : Stamped TimePoint := ⟨fun p => p.ts.toInt⟩

/-- The same time and, as doubles compare, the same value. -/
def same (p q : TimePoint) : Bool := p.ts = q.ts && p.value == q.value

instance : Codec TimePoint where
  write p := .object [("ts", write p.ts), ("value", write p.value)]
  read := FieldReader.record do
    return { ts := ← FieldReader.required "ts", value := ← FieldReader.required "value" }

end TimePoint

end TradeDesk
