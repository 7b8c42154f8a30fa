import TradeDesk.Account.Trader
import TradeDesk.Proofs.Wire.Requests

/-!
# Messages as lines of text

A frame goes through a message and back unchanged, and its line is read as the same frame. A request
that is published goes out as a line from which the venue reads the same message and the same record,
though its members come in the order of their keys.
-/

namespace TradeDesk

open Json
open Json.FieldReader (Reads reads_required reads_optional)

namespace Frame

variable {f : Frame} {line : List UInt8}

def members (f : Frame) : List (String × Value) :=
  [("msg_type", Codec.write f.msgType), ("req_serial", Codec.write f.reqSerial),
    ("attribute", Codec.write f.attr), ("source", Codec.write f.source), ("payload", f.payload)]

/-- A frame with the members of its payload in order. -/
def arrange (f : Frame) : Frame := { f with payload := f.payload.arrange }

theorem legible_members (h : f.payload.Legible fieldDepth) : ∀ m ∈ f.members, m.2.Legible fieldDepth := by
  simp only [members, List.forall_mem_cons]
  exact ⟨Value.legible_uint32 f.msgType, Value.legible_uint32 f.reqSerial,
    Value.legible_uint32 f.attr, .text f.source, h, nofun⟩

/-- The line of a frame is read as that frame. -/
theorem parse?_line (h : f.payload.Legible fieldDepth) : parse? f.line = some f.arrange := by
  have hkeys : (f.members.map Prod.fst).Nodup := by simp [members]
  have hpayload : Codec.read fieldDepth f.payload.document = some f.payload.arrange :=
    h.toValue?_document
  have hread : Codec.read (fieldDepth + 1) (Value.object f.members).document = some f.arrange := by
    refine Reads.record ?_ (List.Perm.refl f.members)
    apply Reads.bind (reads_required hkeys (by simp [members]) (Codec.read_uint32 f.msgType))
    apply Reads.bind (reads_optional hkeys (by simp [members]) 0 (Codec.read_uint32 f.reqSerial))
    apply Reads.bind (reads_optional hkeys (by simp [members]) 0 (Codec.read_uint32 f.attr))
    apply Reads.bind (reads_optional hkeys (by simp [members]) "" (Codec.read_string f.source))
    apply Reads.bind (reads_required hkeys (by simp [members]) hpayload)
    exact Reads.pure f.arrange
  have hline : Document.parse? f.line = some (Value.object f.members).document :=
    Value.parse?_write _ (Value.Legible.object (legible_members h)).readsBack
  rw [parse?, Codec.parse?, hline, Option.bind_some]
  exact hread

/-- The payload of a frame was read with the frame's own container open. -/
theorem exists_document (h : parse? line = some f) :
    ∃ d : Document, d.toValue? fieldDepth = some f.payload := by
  obtain ⟨d, -, hd⟩ := Option.bind_eq_some_iff.mp h
  have hrecord : Codec.read (fieldDepth + 1) d = some f := hd
  obtain ⟨fields, rest, hfields⟩ := FieldReader.exists_of_record hrecord
  obtain ⟨q₁, -, h₁⟩ := FieldReader.bind_eq_some_iff.mp hfields
  obtain ⟨q₂, -, h₂⟩ := FieldReader.bind_eq_some_iff.mp h₁
  obtain ⟨q₃, -, h₃⟩ := FieldReader.bind_eq_some_iff.mp h₂
  obtain ⟨q₄, -, h₄⟩ := FieldReader.bind_eq_some_iff.mp h₃
  obtain ⟨q₅, hpayload, h₅⟩ := FieldReader.bind_eq_some_iff.mp h₄
  obtain ⟨document, hread⟩ := FieldReader.exists_of_required hpayload
  cases h₅
  exact ⟨document, hread⟩

theorem ofEnvelope_of_parse? {e : Envelope} {v : Value} (h : Codec.parse? e.payload = some v) :
    ofEnvelope e = .ok ⟨e.msgType, e.reqSerial, e.attr, e.source, v⟩ := by
  simp only [ofEnvelope, Envelope.decode, h]
  rfl

/-- The text of a value is read as that value with its members in order. -/
theorem parse?_write {v : Value} (h : v.Legible Document.depthLimit) : Codec.parse? v.write = some v.arrange := by
  rw [Codec.parse?, Value.parse?_write v h.readsBack, Option.bind_some]
  exact h.toValue?_document

/-- A frame that was read goes through a message and through its own line unchanged. -/
theorem round_trip (h : parse? line = some f) (hf : ∀ x ∈ f.payload.floats, KeptIfFinite x) :
    ofEnvelope f.envelope = .ok f ∧ parse? f.line = some f := by
  obtain ⟨d, hd⟩ := exists_document h
  obtain ⟨hlegible, harrange⟩ := Value.legible_of_toValue? hd hf
  have hpayload := parse?_write (hlegible.mono (by decide))
  rw [harrange] at hpayload
  have hline := parse?_line hlegible
  rw [arrange, harrange] at hline
  exact ⟨ofEnvelope_of_parse? hpayload, hline⟩

end Frame

/-! ### Requests as lines -/

/-- A record that is published in a message goes out as a line from which the same message is read,
with the same record in it. -/
theorem Envelope.exists_frame {α : Type} [Codec α] {a : α} {members : List (String × Value)}
    (h : Carries a members) (kind : MessageKind) (serial : UInt32) (source : String) :
    ∃ f : Frame, Frame.ofEnvelope (.encode kind serial source a) = .ok f ∧
      Frame.parse? f.line = some f ∧ f.envelope.msgType = kind.tag ∧
      f.envelope.reqSerial = serial ∧ f.envelope.attr = 0 ∧ f.envelope.source = source ∧
      f.envelope.decode = .ok a := by
  have hpayload := Frame.parse?_write (h.legible.mono (by decide))
  have hline := Frame.parse?_line (f := ⟨kind.tag, serial, 0, source, (Codec.write a).arrange⟩)
    (h.legible.arrange.mono (by decide))
  rw [Frame.arrange, h.legible.arrange_arrange] at hline
  refine ⟨_, Frame.ofEnvelope_of_parse? hpayload, hline, rfl, rfl, rfl, rfl, ?_⟩
  simp only [Envelope.decode, Frame.envelope, h.parse?_arrange]

/-- The doubles that are asked with. -/
def Request.floats : Request → List Float
  | .place command => [command.price, command.vol]
  | .transfer _ _ amount => [amount]
  | _ => []

/-- A message holds the record that a trader asks with. -/
def Trader.Asks (t : Trader) (e : Envelope) : Request → Prop
  | .account => e.decode = .ok (⟨t.exchange⟩ : MoneyQuery)
  | .position key => e.decode = .ok (⟨key⟩ : PositionQuery)
  | .place command => e.decode = .ok command
  | .order key orderId => e.decode = .ok (⟨key, some orderId, none⟩ : OrderQuery)
  | .ordersByStatus key status => e.decode = .ok (⟨key, none, some status⟩ : OrderQuery)
  | .cancel command => e.decode = .ok command
  | .transfer symbol direction amount =>
    e.decode = .ok (⟨t.exchange, symbol, direction, amount⟩ : TransferRequest)

theorem Trader.exists_frame (t : Trader) (serial : UInt32) (r : Request)
    (hr : ∀ x ∈ r.floats, ReadsBack x) :
    ∃ f : Frame, Frame.ofEnvelope (t.envelope serial r) = .ok f ∧ Frame.parse? f.line = some f ∧
      f.envelope.msgType = (t.envelope serial r).msgType ∧
      f.envelope.reqSerial = (t.envelope serial r).reqSerial ∧
      f.envelope.attr = (t.envelope serial r).attr ∧
      f.envelope.source = (t.envelope serial r).source ∧ t.Asks f.envelope r := by
  cases r with
  | account => exact Envelope.exists_frame (MoneyQuery.carries ⟨t.exchange⟩) _ _ _
  | position key => exact Envelope.exists_frame (PositionQuery.carries ⟨key⟩) _ _ _
  | place command =>
    obtain ⟨hprice, hvol, -⟩ := by simpa only [Request.floats, List.forall_mem_cons] using hr
    exact Envelope.exists_frame (command.carries hprice hvol) _ _ _
  | order key orderId =>
    exact Envelope.exists_frame (OrderQuery.carries ⟨key, some orderId, none⟩) _ _ _
  | ordersByStatus key status =>
    exact Envelope.exists_frame (OrderQuery.carries ⟨key, none, some status⟩) _ _ _
  | cancel command => exact Envelope.exists_frame command.carries _ _ _
  | transfer symbol direction amount =>
    have hamount : ReadsBack amount := hr amount List.mem_cons_self
    exact Envelope.exists_frame
      (TransferRequest.carries ⟨t.exchange, symbol, direction, amount⟩ hamount) _ _ _

/-- Lines of text keep messages. A line that is read as a frame holds a message that makes the same
frame again, and the frame's own line is read as that frame. A request goes out as a line that is
read as the frame of its message, with the record that was asked with. Each double is taken to be
read back from its text if it is finite; doubles that are read are. -/
theorem lines_keep_messages :
    (∀ (line : List UInt8) (f : Frame), Frame.parse? line = some f →
      (∀ x ∈ f.payload.floats, KeptIfFinite x) →
        Frame.ofEnvelope f.envelope = .ok f ∧ Frame.parse? f.line = some f) ∧
    ∀ (t : Trader) (serial : UInt32) (r : Request), (∀ x ∈ r.floats, x.isFinite = true) →
      (∀ x ∈ r.floats, KeptIfFinite x) →
        ∃ f : Frame, Frame.ofEnvelope (t.envelope serial r) = .ok f ∧
          Frame.parse? f.line = some f ∧
          f.envelope.msgType = (t.envelope serial r).msgType ∧
          f.envelope.reqSerial = (t.envelope serial r).reqSerial ∧
          f.envelope.attr = (t.envelope serial r).attr ∧
          f.envelope.source = (t.envelope serial r).source ∧ t.Asks f.envelope r := by
  constructor
  · intro line f hline hf
    exact Frame.round_trip hline hf
  · intro t serial r hfinite hkept
    exact t.exists_frame serial r fun x hx ↦ hkept x hx (hfinite x hx)

/-- A line with its fields and keys out of order, a key that comes twice, and lists in a list. -/
def depthLine : List UInt8 := utf8
  "\x7b\"payload\":\x7b\"b\":[0.5,[-2.5e-3]],\"a\":7,\"\\u0061\":null\x7d,\"msg_type\":1002\x7d"

/-- An order at the market. -/
def marketOrder : OrderCommand :=
  ⟨⟨"okex", "btc_usd", "quarter"⟩, .openLong, .market, 6400.0, 3, 0.05, 10⟩

theorem depthLine_and_marketOrder_kept :
    (∃ f : Frame, Frame.parse? depthLine = some f ∧ f.payload.floats = [0.5, -0.0025] ∧
      Frame.ofEnvelope f.envelope = .ok f ∧ Frame.parse? f.line = some f) ∧
    ∃ f : Frame, Frame.ofEnvelope ((⟨"okex", .empty⟩ : Trader).envelope 11 (.place marketOrder)) =
      .ok f ∧ Frame.parse? f.line = some f ∧ f.envelope.decode = .ok marketOrder := by
  have hread : (Frame.parse? depthLine).map (·.payload.floats) = some [0.5, -0.0025] := by
    decide +kernel
  have hkept : ∀ x ∈ ([0.5, -0.0025] : List Float), KeptIfFinite x := by
    decide +kernel
  constructor
  · obtain ⟨f, hf, hfloats⟩ := Option.map_eq_some_iff.mp hread
    exact ⟨f, hf, hfloats, lines_keep_messages.1 depthLine f hf (hfloats ▸ hkept)⟩
  · obtain ⟨f, hf, hline, -, -, -, -, horder⟩ :=
      lines_keep_messages.2 ⟨"okex", .empty⟩ 11 (.place marketOrder) (by decide +kernel)
        (by decide +kernel)
    exact ⟨f, hf, hline, horder⟩

end TradeDesk
