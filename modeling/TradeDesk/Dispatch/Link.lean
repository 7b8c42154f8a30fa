import TradeDesk.Dispatch.Answers
import TradeDesk.Dispatch.Chain
import TradeDesk.Dispatch.Feed
import TradeDesk.Strategy.Registry

/-!
# The links of a desk's chain

Answers of venues come first, so that confirmations reach the accounts before strategies decide; then
market data; the strategies come last.

Spec: `SPEC_FULL.md` §4.6 and §C.4. Follows `StrategyHandler` of `dispatch::strategy`, and
`Engine::new` for the order of the links.
-/

namespace TradeDesk

namespace Registry

variable {σ : Type} [Strategy σ]

/-- One envelope: a tick goes to every strategy and is not claimed. Follows
`StrategyHandler::handle`. -/
def handle (r : Registry σ) (d : Desk) (e : Envelope) : Except Fault (Bool × Registry σ × Desk) :=
  match e.kind? with
  | some .tick =>
    match (e.decode : Except DeskError Tick) with
    | .ok tick => do
      let (strategies, d) ← tickAll tick d r.strategies
      return (false, ⟨strategies⟩, d)
    | .error _ => .ok (true, r, d)
  | _ => .ok (false, r, d)

end Registry

/-- A link of a desk's chain. -/
inductive Link (σ : Type) where
  | answers
  | market (feed : Feed)
  | strategies (registry : Registry σ)

namespace Link

variable {σ : Type} [Strategy σ]

def name : Link σ → String
  | answers => "trade"
  | market _ => "quote"
  | strategies _ => "strategy"

/-- A link as diagnostics show it. -/
def display : Link σ → String
  | answers => "TradeHandler"
  | market f => "QuoteHandler \x7b candles: " ++ toString f.candles ++ " \x7d"
  | strategies r => "StrategyHandler \x7b registry: " ++ r.display ++ " \x7d"

instance : Handler (Link σ) Desk where
  name := name
  start l d :=
    match l with
    | strategies r =>
      let (started, d) := Registry.initAll d r.strategies
      (strategies ⟨started⟩, d)
    | l => (l, d)
  handle l d e :=
    match l with
    | answers =>
      let (claimed, d) := Answers.handle d e
      .ok (claimed, answers, d)
    | market f =>
      let (claimed, f, d) := f.handle d e
      .ok (claimed, market f, d)
    | strategies r => do
      let (claimed, r, d) ← r.handle d e
      return (claimed, strategies r, d)
  stop l d :=
    match l with
    | strategies r =>
      let (released, d) := Registry.releaseAll d r.strategies
      (strategies ⟨released⟩, d)
    | l => (l, d)

end Link

end TradeDesk
