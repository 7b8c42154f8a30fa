import TradeDesk.Strategy.Machine
import TradeDesk.Wire.Envelope

/-!
# The chain

Every inbound envelope walks through a chain of handlers; the first that claims it ends the walk. The
handlers share a state, which only they change.

Spec: `SPEC_FULL.md` §4.6. Follows `Dispatcher` of `dispatch`.
-/

namespace TradeDesk

/-- Handlers over a shared state `γ`. -/
class Handler (η : Type) (γ : outParam Type) where
  name : η → String
  /-- Called once, before the first envelope. -/
  start : η → γ → η × γ
  /-- True claims the envelope. -/
  handle : η → γ → Envelope → Except Fault (Bool × η × γ)
  /-- Called once, after the last envelope. -/
  stop : η → γ → η × γ

/-- A chain of handlers, and how many envelopes have entered it. -/
structure Chain (η : Type) where
  handlers : List η
  processed : Nat := 0

namespace Chain

variable {η γ : Type} [Handler η γ]

/-- Calls every handler of a chain in order. -/
def each (f : η → γ → η × γ) (s : γ) : List η → List η × γ
  | [] => ([], s)
  | h :: rest =>
    let (h, s) := f h s
    let (rest, s) := each f s rest
    (h :: rest, s)

/-- Starts every handler. -/
def start (c : Chain η) (s : γ) : Chain η × γ :=
  let (handlers, s) := each Handler.start s c.handlers
  ({ c with handlers := handlers }, s)

/-- Stops every handler. -/
def stop (c : Chain η) (s : γ) : Chain η × γ :=
  let (handlers, s) := each Handler.stop s c.handlers
  ({ c with handlers := handlers }, s)

/-- Walks an envelope through a chain. The answer is the name of the handler that claimed it.
Follows the loop of `Dispatcher::dispatch`. -/
def walk (e : Envelope) (s : γ) : List η → Except Fault (Option String × List η × γ)
  | [] => .ok (none, [], s)
  | h :: rest => do
    let (claimed, h, s) ← Handler.handle h s e
    if claimed then return (some (Handler.name h), h :: rest, s)
    else
      let (claimer, rest, s) ← walk e s rest
      return (claimer, h :: rest, s)

/-- Dispatches one envelope. Follows `Dispatcher::dispatch`. -/
def dispatch (c : Chain η) (s : γ) (e : Envelope) :
    Except Fault (Option String × Chain η × γ) := do
  let (claimer, handlers, s) ← walk e s c.handlers
  return (claimer, ⟨handlers, c.processed + 1⟩, s)

end Chain

end TradeDesk
