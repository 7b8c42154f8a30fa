import TradeDesk.Account.Trader
import TradeDesk.Proofs.Json.Text
import TradeDesk.Wire.Response

/-!
# Turns

A run of the desk seen from outside: one turn after another, each with the envelope that came in, if
any, and the envelopes that went out. What a turn has to do with an instrument is read off its
envelopes.
-/

namespace TradeDesk

/-! ### Messages about an instrument -/

/-- The text that an order or a query of an instrument begins with. -/
def Instrument.lead (key : Instrument) : List UInt8 :=
  0x7B :: Json.Value.writeMembers key.members

private theorem lead_append (key : Instrument) (rest : List UInt8) :
    key.lead ++ rest = 0x7B :: (Json.quote "exchange" ++ 0x3A :: (Json.quote key.exchange ++
      0x2C :: (Json.quote "symbol" ++ 0x3A :: (Json.quote key.symbol ++
        0x2C :: (Json.quote "contract_type" ++ 0x3A :: (Json.quote key.contract ++ rest)))))) := by
  simp only [Instrument.lead, Instrument.members, Json.Value.writeMembers, Json.Value.write,
    Json.write, List.append_assoc, List.cons_append]

private theorem exists_write_members (key : Instrument) {more : List (String × Json.Value)}
    (hm : more ≠ []) :
    ∃ rest, (Json.Value.object (key.members ++ more)).write = key.lead ++ rest := by
  have hk : key.members ≠ [] := List.cons_ne_nil _ _
  refine ⟨0x2C :: Json.Value.writeMembers more ++ [0x7D], ?_⟩
  rw [Json.Value.write, Json.writeMembers_append hk hm, List.append_assoc]
  rfl

/-- The beginnings of two instruments are those of one text only if they are the same. -/
theorem Instrument.lead_append_inj {k k' : Instrument} {rest rest' : List UInt8}
    (h : k.lead ++ rest = k'.lead ++ rest') : k = k' := by
  rw [lead_append, lead_append] at h
  obtain ⟨-, hx⟩ := Json.quote_append_inj (List.cons.inj h).2
  obtain ⟨hexchange, hx⟩ := Json.quote_append_inj (List.cons.inj hx).2
  obtain ⟨-, hs⟩ := Json.quote_append_inj (List.cons.inj hx).2
  obtain ⟨hsymbol, hs⟩ := Json.quote_append_inj (List.cons.inj hs).2
  obtain ⟨-, hc⟩ := Json.quote_append_inj (List.cons.inj hs).2
  obtain ⟨hcontract, -⟩ := Json.quote_append_inj (List.cons.inj hc).2
  cases k
  cases k'
  simp_all

namespace Envelope

/-- A message of a kind that begins with the names of an instrument. -/
def concerns (kind : MessageKind) (key : Instrument) (e : Envelope) : Bool :=
  e.kind? = some kind ∧ key.lead.isPrefixOf e.payload

/-- A record goes out as a message of its kind. -/
theorem kind?_encode {α : Type} [Json.Codec α] (kind : MessageKind) (serial : UInt32)
    (source : String) (a : α) : (encode kind serial source a).kind? = some kind :=
  MessageKind.ofTag?_tag kind

private theorem concerns_of_lead {kind : MessageKind} {key key' : Instrument} {e : Envelope}
    (hk : e.kind? = some kind) {rest : List UInt8} (hp : e.payload = key.lead ++ rest) :
    e.concerns kind key' = decide (key = key') := by
  rw [concerns, decide_eq_decide, hp, List.isPrefixOf_iff_prefix]
  constructor
  · rintro ⟨-, more, hm⟩
    exact (Instrument.lead_append_inj hm).symm
  · rintro rfl
    exact ⟨hk, List.prefix_append _ _⟩

/-- A message of one kind is none of another. -/
theorem concerns_of_ne {kind kind' : MessageKind} {key : Instrument} {e : Envelope}
    (hk : e.kind? = some kind') (hne : kind' ≠ kind) : e.concerns kind key = false := by
  rw [concerns, hk]
  apply decide_eq_false
  rintro ⟨h, -⟩
  exact hne (Option.some.inj h)

end Envelope

/-- The kind of message that a request becomes. -/
def Request.kind : Request → MessageKind
  | .account => .queryMoney
  | .position _ => .queryPosition
  | .place _ => .placeOrder
  | .order _ _ | .ordersByStatus _ _ => .queryOrders
  | .cancel _ => .cancelOrders
  | .transfer _ _ _ => .transferMoney

namespace Trader

/-- A request goes out as a message of its kind. -/
theorem kind?_envelope (t : Trader) (serial : UInt32) (r : Request) :
    (t.envelope serial r).kind? = some r.kind := by
  cases r with
  | account => exact Envelope.kind?_encode _ _ _ _
  | position _ => exact Envelope.kind?_encode _ _ _ _
  | place _ => exact Envelope.kind?_encode _ _ _ _
  | order _ _ => exact Envelope.kind?_encode _ _ _ _
  | ordersByStatus _ _ => exact Envelope.kind?_encode _ _ _ _
  | cancel _ => exact Envelope.kind?_encode _ _ _ _
  | transfer _ _ _ => exact Envelope.kind?_encode _ _ _ _

/-- A request goes out under its serial. -/
theorem reqSerial_envelope (t : Trader) (serial : UInt32) (r : Request) :
    (t.envelope serial r).reqSerial = serial := by
  cases r with
  | account => rfl
  | position _ => rfl
  | place _ => rfl
  | order _ _ => rfl
  | ordersByStatus _ _ => rfl
  | cancel _ => rfl
  | transfer _ _ _ => rfl

/-- A message is an order on an instrument exactly when it was sent as one. -/
theorem concerns_placeOrder (t : Trader) (serial : UInt32) (r : Request) (key : Instrument) :
    (t.envelope serial r).concerns .placeOrder key = true ↔ ∃ c, r = .place c ∧ c.key = key := by
  by_cases hr : r.kind = .placeOrder
  · cases r with
    | place c =>
      obtain ⟨rest, hp⟩ : ∃ rest, (t.envelope serial (.place c)).payload = c.key.lead ++ rest :=
        exists_write_members c.key (List.cons_ne_nil _ _)
      have hk : (t.envelope serial (.place c)).kind? = some .placeOrder := t.kind?_envelope serial _
      rw [Envelope.concerns_of_lead hk hp, decide_eq_true_eq]
      constructor
      · exact fun h ↦ ⟨c, rfl, h⟩
      · rintro ⟨c', hc, hk⟩
        cases hc
        exact hk
    | account | position _ | order _ _ | ordersByStatus _ _ | cancel _ | transfer _ _ _ =>
      cases hr
  · rw [Envelope.concerns_of_ne (t.kind?_envelope serial r) hr]
    constructor
    · intro h
      cases h
    · rintro ⟨c, rfl, -⟩
      exact absurd rfl hr

end Trader

/-- The answer, without an error, that a message gives to a query of an instrument's position. -/
def Envelope.positionAnswer? (e : Envelope) (key : Instrument) : Option PositionResponse :=
  if e.kind? = some .positionAnswer then
    match (e.decode : Except DeskError PositionResponse) with
    | .ok r => if r.status.isOk ∧ ⟨e.source, r.symbol, r.contract⟩ = key then some r else none
    | .error _ => none
  else none

/-- No venue answers for an instrument of another. -/
theorem Envelope.positionAnswer?_of_source_ne {e : Envelope} {key : Instrument}
    (h : e.source ≠ key.exchange) : e.positionAnswer? key = none := by
  unfold positionAnswer?
  split
  · split
    · apply if_neg
      rintro ⟨-, rfl⟩
      exact h rfl
    · rfl
  · rfl

/-- No message of another kind is an answer about a position. -/
theorem Envelope.positionAnswer?_of_ne {e : Envelope} (h : e.kind? ≠ some .positionAnswer)
    (key : Instrument) : e.positionAnswer? key = none := if_neg h

/-- The tick that an envelope brings, if it decodes. -/
def Envelope.tick? (e : Envelope) : Option Tick :=
  if e.kind? = some .tick then (e.decode : Except DeskError Tick).toOption else none

/-- An envelope brings a tick if it is one and decodes. -/
theorem Envelope.tick?_eq_some {e : Envelope} {tick : Tick} :
    e.tick? = some tick ↔
      e.kind? = some .tick ∧ (e.decode : Except DeskError Tick) = .ok tick := by
  unfold tick?
  split
  · next hk =>
    cases (e.decode : Except DeskError Tick) with
    | ok t => simp [hk, Except.toOption]
    | error err => simp [Except.toOption]
  · next hk => simp [hk]

/-! ### Turns -/

/-- One turn: the envelope that came in, if any, and those that went out. -/
structure Turn where
  inbound : Option Envelope
  sent : List Envelope

namespace Turn

/-- An order on an instrument went out. -/
def orders (t : Turn) (key : Instrument) : Bool := t.sent.any (·.concerns .placeOrder key)

/-- No order went out. -/
def Quiet (t : Turn) : Prop := ∀ key, t.orders key = false

/-- The serials under which an instrument's position was asked for. -/
def queries (t : Turn) (key : Instrument) : List UInt32 :=
  (t.sent.filter (·.concerns .queryPosition key)).map (·.reqSerial)

/-- The serials under which orders on an instrument went out. -/
def orderSerials (t : Turn) (key : Instrument) : List UInt32 :=
  (t.sent.filter (·.concerns .placeOrder key)).map (·.reqSerial)

/-- The tick that came in. -/
def tick? (t : Turn) : Option Tick := t.inbound.bind (·.tick?)

/-- The answer about an instrument's position that came in. -/
def answer? (t : Turn) (key : Instrument) : Option PositionResponse :=
  t.inbound.bind (·.positionAnswer? key)

/-- What a turn makes of the trust in a cached position; `none` while there is no position. An order
takes it away, and an answer gives it back; one that reports nothing held makes no position. -/
def trust (t : Turn) (key : Instrument) (old : Option Bool) : Option Bool :=
  if t.orders key then some false
  else
    match t.answer? key with
    | some r => if r.positions.isEmpty then old.map fun _ => true else some true
    | none => old

variable {inbound inbound' : Option Envelope} {es es' : List Envelope}

/-- An order is among the envelopes of the first part of a turn or among those of the second. -/
theorem orders_append (inbound inbound' : Option Envelope) (es es' : List Envelope)
    (key : Instrument) :
    (⟨inbound, es ++ es'⟩ : Turn).orders key =
      ((⟨inbound, es⟩ : Turn).orders key || (⟨inbound', es'⟩ : Turn).orders key) :=
  List.any_append

/-- A turn of two parts without orders is one without orders. -/
theorem Quiet.append (h : (⟨inbound, es⟩ : Turn).Quiet) (h' : (⟨inbound', es'⟩ : Turn).Quiet) :
    (⟨inbound, es ++ es'⟩ : Turn).Quiet := by
  intro key
  rw [orders_append inbound inbound', h key, h' key]
  rfl

end Turn

/-- The trust in a cached position after turns, newest first. -/
def trustAfter (key : Instrument) : List Turn → Option Bool
  | [] => none
  | t :: older => t.trust key (trustAfter key older)

/-- A turn makes sure that there is a position: an order went out, or an answer came with something
to report. -/
def Turn.caches (t : Turn) (key : Instrument) : Bool :=
  t.orders key || (t.answer? key).any fun r => !r.positions.isEmpty

/-- There is a position once a turn has made sure of it. -/
theorem isSome_trustAfter (key : Instrument) (ts : List Turn) :
    (trustAfter key ts).isSome = ts.any (·.caches key) := by
  induction ts with
  | nil => rfl
  | cons t older ih =>
    rw [List.any_cons, ← ih, trustAfter, Turn.trust, Turn.caches]
    cases t.orders key with
    | true => rfl
    | false =>
      cases t.answer? key with
      | none => rfl
      | some r =>
        show (if r.positions.isEmpty then _ else some true).isSome = _
        cases hr : r.positions.isEmpty with
        | true => simp [hr]
        | false => simp [hr]

end TradeDesk
