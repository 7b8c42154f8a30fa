import TradeDesk.Error
import TradeDesk.Json.Codec

/-!
# Envelopes

A message as the transport delivers it: a numeric type, the serial of the request that it belongs to,
the exchange that published it, and a payload of JSON bytes. The same message on one line of text is
a `Frame`, whose payload is a JSON value.

Spec: `SPEC_FULL.md` §6 and §C.1. Follows `MessageType`, `Envelope` and `JsonFrame` of `protocol`.
-/

namespace TradeDesk

open Json

/-- What a message is about. -/
inductive MessageKind where
  | tick
  | candle
  | depth
  | tradePrint
  | index
  | queryMoney
  | moneyAnswer
  | queryPosition
  | positionAnswer
  | placeOrder
  | placeAnswer
  | queryOrders
  | ordersAnswer
  | cancelOrders
  | cancelAnswer
  | transferMoney
  | transferAnswer
  deriving DecidableEq, Repr

namespace MessageKind

/-- Every kind, in the order of the tags. -/
def all : List MessageKind :=
  [tick, candle, depth, tradePrint, index, queryMoney, moneyAnswer, queryPosition, positionAnswer,
   placeOrder, placeAnswer, queryOrders, ordersAnswer, cancelOrders, cancelAnswer, transferMoney,
   transferAnswer]

/-- The number that stands for a kind. -/
def tag : MessageKind → UInt32
  | tick => 1000
  | candle => 1001
  | depth => 1002
  | tradePrint => 1003
  | index => 1004
  | queryMoney => 2001
  | moneyAnswer => 2002
  | queryPosition => 2003
  | positionAnswer => 2004
  | placeOrder => 2005
  | placeAnswer => 2006
  | queryOrders => 2007
  | ordersAnswer => 2008
  | cancelOrders => 2009
  | cancelAnswer => 2010
  | transferMoney => 2011
  | transferAnswer => 2012

/-- The kind of a tag; other tags have none. -/
def ofTag? (t : UInt32) : Option MessageKind := all.find? fun k => k.tag = t

theorem ofTag?_tag (k : MessageKind) : ofTag? k.tag = some k := by cases k <;> decide

end MessageKind

/-- A framed message. -/
structure Envelope where
  msgType : UInt32
  reqSerial : UInt32
  attr : UInt32
  /-- The exchange whose adapter published the message. -/
  source : String
  payload : List UInt8
  deriving DecidableEq, Repr

namespace Envelope

/-- A record as a message. -/
def encode {α : Type} [Codec α] (kind : MessageKind) (serial : UInt32) (source : String) (a : α) :
    Envelope :=
  ⟨kind.tag, serial, 0, source, (write a).write⟩

def kind? (e : Envelope) : Option MessageKind := MessageKind.ofTag? e.msgType

/-- The payload as a record. -/
def decode {α : Type} [Codec α] (e : Envelope) : Except DeskError α :=
  match Codec.parse? e.payload with
  | some a => .ok a
  | none => .error (.decode e.msgType)

end Envelope

/-- Any JSON value; members are put in the order of their keys. -/
instance : Codec Value where
  write v := v
  read depth d := d.toValue? depth

/-- The form of a message on a line of text. -/
structure Frame where
  msgType : UInt32
  reqSerial : UInt32
  attr : UInt32
  source : String
  payload : Value

namespace Frame

instance : Codec Frame where
  write f := .object
    [("msg_type", write f.msgType), ("req_serial", write f.reqSerial),
     ("attribute", write f.attr), ("source", write f.source), ("payload", f.payload)]
  read := FieldReader.record do
    return {
      msgType := ← FieldReader.required "msg_type"
      reqSerial := ← FieldReader.optional "req_serial" 0
      attr := ← FieldReader.optional "attribute" 0
      source := ← FieldReader.optional "source" ""
      payload := ← FieldReader.required "payload" }

/-- Reads a line of text. -/
def parse? (line : List UInt8) : Option Frame := Codec.parse? line

/-- The line of text of a frame. -/
def line (f : Frame) : List UInt8 := (write f).write

/-- The frame as a message. -/
def envelope (f : Frame) : Envelope :=
  ⟨f.msgType, f.reqSerial, f.attr, f.source, f.payload.write⟩

/-- The message as a frame, if its payload is JSON. -/
def ofEnvelope (e : Envelope) : Except DeskError Frame :=
  (e.decode : Except DeskError Value).map fun payload =>
    ⟨e.msgType, e.reqSerial, e.attr, e.source, payload⟩

end Frame

end TradeDesk
