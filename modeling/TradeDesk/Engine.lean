import TradeDesk.Dispatch.Link
import TradeDesk.Dispatch.Worker
import TradeDesk.Mavg.Strategy

/-!
# The engine

A desk and its strategies, assembled from settings.

Spec: `SPEC_FULL.md` §C.8. Follows `Engine` of `engine`.
-/

namespace TradeDesk

/-- A desk and its strategies. -/
structure Engine (σ : Type) where
  desk : Desk
  registry : Registry σ

namespace Engine

variable {σ : Type} [Strategy σ]

/-- Every trader serves a configured exchange, and no two serve the same. `seen` are the exchanges
that are already served. -/
def checkTraders (s : Settings) (seen : List String) : List Trader → Except DeskError Unit
  | [] => .ok ()
  | t :: rest =>
    if (s.exchange? t.exchange).isNone then .error (.unknownExchange t.exchange)
    else if seen.contains t.exchange then
      .error (.invalidRegistration (.traderTwice t.exchange))
    else checkTraders s (t.exchange :: seen) rest

/-- The engine for settings and traders, without strategies. Follows `Engine::new`. -/
def assemble (s : Settings) (traders : List Trader) : Except DeskError (Engine σ) := do
  s.validate
  checkTraders s [] traders
  let bars := Bars.empty s.timeframes s.ringCapacity.toNat
  return ⟨.ofTraders traders bars s.maxChecks, .empty⟩

/-- Adds a strategy. Follows `Engine::register_strategy`. -/
def register (e : Engine σ) (s : σ) : Except DeskError (Engine σ) := do
  return { e with registry := ← e.registry.register s }

/-- The chain of handlers. -/
def chain (e : Engine σ) : Chain (Link σ) :=
  ⟨[.answers, .market {}, .strategies e.registry], 0⟩

/-- Works through a closed queue of envelopes. `shutdown` says whether a shutdown was requested
before. Follows `Engine::run`. -/
def run (e : Engine σ) (queue : List Envelope) (shutdown : Bool) :
    Except Fault (Worker (Link σ) Desk) :=
  (Worker.begin e.chain e.desk queue true shutdown true).runOut

end Engine

/-- A trader for each configured exchange. -/
def Settings.traders (s : Settings) : List Trader :=
  s.exchanges.map fun e => ⟨e.name, e.faceValues⟩

/-- The engine of settings: a trader for each exchange, and the moving-average strategy if it is
configured. Follows the assembly in `main`. -/
def Settings.engine (s : Settings) : Except DeskError (Engine MavgStrategy) := do
  let e ← Engine.assemble s s.traders
  match s.mavg with
  | none => return e
  | some m => e.register (← MavgStrategy.ofSettings m)

end TradeDesk
