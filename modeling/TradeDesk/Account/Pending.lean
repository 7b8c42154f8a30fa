import TradeDesk.Table
import TradeDesk.Wire.Envelope

/-!
# Pending requests

Requests that change something at a venue and have not been confirmed yet, by serial. An entry is
removed by its confirmation, or given up once its strategy has looked at it often enough.

Spec: `SPEC_FULL.md` §3, `FeedbackEntry`, and §C.4. Follows `Feedback` of `execution::feedback`.
-/

namespace TradeDesk

/-- One request that waits for its confirmation. -/
structure PendingRequest where
  strategy : String
  serial : UInt32
  kind : MessageKind
  /-- What the request was about, in words. -/
  data : String
  /-- How often the strategy has looked at the entry. -/
  checks : Nat
  deriving DecidableEq, Repr

/-- The pending requests. -/
structure Pending where
  entries : Table UInt32 PendingRequest := .empty

namespace Pending

/-- No pending requests. -/
def empty : Pending := {}

/-- Adds a request; a serial that is taken is left alone, and the answer is false. Follows
`Feedback::add`. -/
def add (p : Pending) (strategy : String) (serial : UInt32) (kind : MessageKind) (data : String) :
    Bool × Pending :=
  if p.entries.contains serial then (false, p)
  else (true, ⟨p.entries.insert serial ⟨strategy, serial, kind, data, 0⟩⟩)

/-- Removes the request of a serial, if it is pending, and answers it. Follows
`Feedback::remove`. -/
def remove (p : Pending) (serial : UInt32) : Option PendingRequest × Pending :=
  (p.entries.get? serial, ⟨p.entries.erase serial⟩)

/-- The pending requests of a strategy. -/
def ofStrategy (p : Pending) (strategy : String) : List PendingRequest :=
  p.entries.values.filter fun e => e.strategy = strategy

/-- An entry after `strategy` has looked; it is given up at its last look. -/
def look (strategy : String) (maxChecks : Nat) (e : PendingRequest) : Option PendingRequest :=
  if e.strategy = strategy then
    if maxChecks ≤ e.checks + 1 then none else some { e with checks := e.checks + 1 }
  else some e

/-- Lets a strategy look once at each of its requests. The answer is those that stay pending.
Follows `Feedback::inspect`. -/
def review (p : Pending) (strategy : String) (maxChecks : Nat) :
    List PendingRequest × Pending :=
  let kept : Pending := ⟨⟨p.entries.entries.filterMap fun (serial, e) =>
    (look strategy maxChecks e).map (serial, ·)⟩⟩
  (kept.ofStrategy strategy, kept)

def contains (p : Pending) (serial : UInt32) : Bool := p.entries.contains serial

/-- How many requests are pending. -/
def size (p : Pending) : Nat := p.entries.entries.length

end Pending

end TradeDesk
