import TradeDesk.Dispatch.Chain

/-!
# The worker

The worker takes envelopes from a queue until the queue is closed and empty or a shutdown is
requested. It looks at the shutdown flag before it waits, and a change of the flag goes before an
envelope; an envelope that is being dispatched always completes. When nobody can change the flag any
more, the worker stops watching it.

The world outside is a sequence of events: envelopes are sent, the queue is closed, the flag is set,
its owner goes away; in between the worker takes turns.

Spec: `SPEC_FULL.md` §4.6 and §5. Follows `Dispatcher::run` of `dispatch`, with one turn for each
round of its loop.
-/

namespace TradeDesk

/-- The worker and everything it waits for. -/
structure Worker (η γ : Type) where
  chain : Chain η
  state : γ
  /-- The envelopes that wait, the next first. -/
  queue : List Envelope
  /-- No further envelopes will be sent. -/
  closed : Bool
  /-- The shutdown flag, whether it was set since the worker last looked, and whether it still has an
  owner. -/
  shutdown : Bool
  unseen : Bool
  owned : Bool
  /-- Whether the worker still watches the flag. -/
  watching : Bool
  /-- Whether the worker has already looked at the flag and now waits. -/
  waiting : Bool
  done : Bool

/-- What can happen. -/
inductive WorkerEvent where
  | send (e : Envelope)
  | closeQueue
  | setShutdown (b : Bool)
  | dropShutdown
  /-- The worker takes a turn. -/
  | turn
  deriving Repr

namespace Worker

variable {η γ : Type} [Handler η γ]

/-- A worker that has started its handlers. Everything sent so far is in the queue. -/
def begin (chain : Chain η) (state : γ) (queue : List Envelope) (closed shutdown owned : Bool) :
    Worker η γ :=
  let (chain, state) := chain.start state
  { chain := chain, state := state, queue := queue, closed := closed,
    shutdown := shutdown, unseen := false, owned := owned, watching := true, waiting := false,
    done := false }

/-- Stops the handlers. -/
def finish (w : Worker η γ) : Worker η γ :=
  let (chain, state) := w.chain.stop w.state
  { w with chain := chain, state := state, done := true }

/-- Waits for a change of the flag, its owner's departure, or an envelope, in this order; without
any of them the worker keeps waiting. The order is that of the biased choice in
`Dispatcher::run`. -/
def select (w : Worker η γ) : Except Fault (Worker η γ) :=
  if w.watching ∧ w.unseen then .ok { w with unseen := false, waiting := false }
  else if w.watching ∧ ¬ w.owned then .ok { w with watching := false, waiting := false }
  else
    match w.queue with
    | e :: rest => do
      let (_, chain, state) ← w.chain.dispatch w.state e
      return { w with chain := chain, state := state, queue := rest, waiting := false }
    | [] => .ok (if w.closed then w.finish else { w with waiting := true })

/-- One turn. -/
def turn (w : Worker η γ) : Except Fault (Worker η γ) :=
  if w.done then .ok w
  else if ¬ w.waiting ∧ w.shutdown then .ok w.finish
  else w.select

/-- One event. Nothing is sent to a closed queue, and nobody sets a flag that has no owner. -/
def step (w : Worker η γ) : WorkerEvent → Except Fault (Worker η γ)
  | .send e => .ok (if w.closed then w else { w with queue := w.queue ++ [e] })
  | .closeQueue => .ok { w with closed := true }
  | .setShutdown b => .ok (if w.owned then { w with shutdown := b, unseen := true } else w)
  | .dropShutdown => .ok { w with owned := false }
  | .turn => w.turn

/-- A sequence of events. -/
def run (w : Worker η γ) : List WorkerEvent → Except Fault (Worker η γ)
  | [] => .ok w
  | e :: rest => do (← w.step e).run rest

/-- How many turns are enough for a worker whose queue is closed: one for each envelope, one each to
see a change of the flag and to stop watching it, and the last. -/
def turnsLeft (w : Worker η γ) : Nat := w.queue.length + 3

/-- Lets a worker whose queue is closed work until it is done. -/
def runOut (w : Worker η γ) : Except Fault (Worker η γ) :=
  w.run (List.replicate w.turnsLeft .turn)

end Worker

end TradeDesk
