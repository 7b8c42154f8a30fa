import TradeDesk.Proofs.Wire.Layouts
import TradeDesk.Wire.Envelope

/-!
# Payloads are read back

A record that is sent in a message is read from the message again, and what was read from any payload
is kept when it is sent on: the second payload may be a different text, but it means the same record.
-/

namespace TradeDesk

open Json

namespace Envelope

/-- Records of a type with finite doubles are read from the message that they are sent in, and a record
that was read from any message is read from the message that it is sent on in. Each double is taken to
be read back from its text if it is finite. -/
def RoundTrips (α : Type) [Codec α] : Prop :=
  (∀ (a : α) (kind : MessageKind) (serial : UInt32) (source : String),
    (∀ x ∈ (Codec.write a).floats, x.isFinite = true) →
    (∀ x ∈ (Codec.write a).floats, KeptIfFinite x) →
      (encode kind serial source a).decode = .ok a) ∧
  ∀ (e : Envelope) (a : α), e.decode = .ok a → (∀ x ∈ (Codec.write a).floats, KeptIfFinite x) →
    ∀ (kind : MessageKind) (serial : UInt32) (source : String),
      (encode kind serial source a).decode = .ok a

variable {α : Type} [Codec α]

/-- A message is decoded to what its payload is read as. -/
theorem decode_eq_ok {e : Envelope} {a : α} : e.decode = .ok a ↔ Codec.parse? e.payload = some a := by
  rw [decode]
  cases (Codec.parse? e.payload : Option α) with
  | none => exact ⟨nofun, nofun⟩
  | some b =>
    exact ⟨fun h ↦ congrArg some (Except.ok.inj h), fun h ↦ congrArg Except.ok (Option.some.inj h)⟩

/-- Faithful records that are not too deep make the round trip. -/
theorem roundTrips [Faithful α] (hheight : Faithful.height α ≤ Document.depthLimit) :
    RoundTrips α := by
  have hread (a : α) (ha : ∀ x ∈ (Codec.write a).floats, ReadsBack x) (kind : MessageKind)
      (serial : UInt32) (source : String) : (encode kind serial source a).decode = .ok a := by
    apply decode_eq_ok.mpr
    show Codec.parse? (Codec.write a).write = some a
    rw [Codec.parse?, Value.parse?_write _ ha, Option.bind_some]
    exact Faithful.read_write a hheight ha
  constructor
  · intro a kind serial source hfinite hkept
    exact hread a (fun x hx ↦ hkept x hx (hfinite x hx)) kind serial source
  · intro e a he hkept
    obtain ⟨d, -, hd⟩ := Option.bind_eq_some_iff.mp (decode_eq_ok.mp he)
    exact hread a fun x hx ↦ hkept x hx (Faithful.finite hd x hx)

/-- Every record that is sent, received or stored makes the round trip. -/
theorem payloads_round_trip :
    RoundTrips Tick ∧ RoundTrips CandleUpdate ∧ RoundTrips Depth ∧ RoundTrips TradePrint ∧
    RoundTrips IndexQuote ∧ RoundTrips MoneyQuery ∧ RoundTrips PositionQuery ∧
    RoundTrips OrderQuery ∧ RoundTrips TransferRequest ∧ RoundTrips OrderCommand ∧
    RoundTrips CancelCommand ∧ RoundTrips MoneyResponse ∧ RoundTrips PositionResponse ∧
    RoundTrips PlaceResponse ∧ RoundTrips OrdersResponse ∧ RoundTrips CancelResponse ∧
    RoundTrips TransferResponse ∧ RoundTrips Order ∧ RoundTrips Position ∧ RoundTrips Money ∧
    RoundTrips Candle :=
  ⟨roundTrips (by decide), roundTrips (by decide), roundTrips (by decide), roundTrips (by decide),
    roundTrips (by decide), roundTrips (by decide), roundTrips (by decide), roundTrips (by decide),
    roundTrips (by decide), roundTrips (by decide), roundTrips (by decide), roundTrips (by decide),
    roundTrips (by decide), roundTrips (by decide), roundTrips (by decide), roundTrips (by decide),
    roundTrips (by decide), roundTrips (by decide), roundTrips (by decide), roundTrips (by decide),
    roundTrips (by decide)⟩

/-- An order book with names that are escaped or not ASCII. -/
def book : Depth :=
  ⟨⟨"ok\"ex", "btc\n\u0001usd", "季度"⟩, 1700000000000, [(6400.5, 3.0), (6400.0, 0.25)], []⟩

/-- An answer without a status and with one order, of which most fields are missing and one is not
known. -/
def ordersMessage : Envelope :=
  ⟨MessageKind.ordersAnswer.tag, 7, 0, "okex", utf8 <|
    "\x7b\"orders\":[\x7b\"order_type\":\"open_long\",\"status\":\"waiting\",\"amount\":3," ++
    "\"order_id\":\"7\",\"note\":[null],\"symbol\":\"btc_usd\",\"contract_type\":\"\\u00fc\"\x7d]\x7d"⟩

theorem book_and_ordersMessage_kept :
    (encode .depth 0 "okex" book).decode = .ok book ∧
    ∃ r : OrdersResponse, ordersMessage.decode = .ok r ∧
      (Codec.write r).floats = [3.0, 0.0, 0.0, 0.0, 0.0, 0.0] ∧
      (encode .ordersAnswer 8 "okex" r).decode = .ok r := by
  obtain ⟨-, -, ⟨hbook, -⟩, -, -, -, -, -, -, -, -, -, -, -, ⟨-, horders⟩, -⟩ := payloads_round_trip
  have hread : (Codec.parse? ordersMessage.payload : Option OrdersResponse).map
      (fun r ↦ (Codec.write r).floats) = some [3.0, 0.0, 0.0, 0.0, 0.0, 0.0] := by
    decide +kernel
  obtain ⟨r, hr, hfloats⟩ := Option.map_eq_some_iff.mp hread
  have hr := decode_eq_ok.mpr hr
  have hkept : ∀ x ∈ ([3.0, 0.0, 0.0, 0.0, 0.0, 0.0] : List Float), KeptIfFinite x := by
    decide +kernel
  exact ⟨hbook book .depth 0 "okex" (by decide +kernel) (by decide +kernel), r, hr, hfloats,
    horders ordersMessage r hr (hfloats ▸ hkept) _ _ _⟩

end Envelope

end TradeDesk
