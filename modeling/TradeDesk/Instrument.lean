import TradeDesk.Json.Codec

/-!
# Instruments

One tradable contract on one venue. Everything the desk keeps about a market is kept by instrument.

Follows `InstrumentKey` of `models`.
-/

namespace TradeDesk

open Json

/-- A contract: the venue that lists it, its symbol, and its delivery term. -/
structure Instrument where
  exchange : String
  symbol : String
  contract : String
  deriving DecidableEq, Repr, Inhabited

namespace Instrument

/-- The three names joined by underscores. -/
def label (k : Instrument) : String := k.exchange ++ "_" ++ k.symbol ++ "_" ++ k.contract

/-- The members that a keyed record mixes with its own. -/
def members (k : Instrument) : List (String × Value) :=
  [("exchange", write k.exchange), ("symbol", write k.symbol),
   ("contract_type", write k.contract)]

/-- Reads those members. -/
def fields : FieldReader Instrument := do
  return ⟨← FieldReader.required "exchange", ← FieldReader.required "symbol",
    ← FieldReader.required "contract_type"⟩

instance : Codec Instrument where
  write k := .object k.members
  read := FieldReader.record fields

end Instrument

end TradeDesk
