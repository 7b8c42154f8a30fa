import TradeDesk.Strategy.Machine
import TradeDesk.Text.Quoted

/-!
# Strategies

What every strategy can do, and the strategies of a desk, each under a name of its own.

Spec: `SPEC_FULL.md` §C.4. Follows `Strategy` and `StrategyRegistry` of `strategy`.
-/

namespace TradeDesk

/-- Strategies. A strategy changes the desk only while the desk is lent to it. -/
class Strategy (σ : Type) where
  /-- Also the owner of the strategy's unconfirmed requests. -/
  name : σ → String
  /-- Called once, before the first message. -/
  init : σ → Desk → σ × Desk
  /-- Looks at unconfirmed requests; false passes over the tick. -/
  review : σ → Desk → Bool × σ × Desk
  onTick : σ → Desk → Tick → Except Fault (σ × Desk)
  /-- Called once, after the last message. -/
  release : σ → Desk → σ × Desk

/-- The strategies of a desk, in the order of their registration. -/
structure Registry (σ : Type) where
  strategies : List σ := []

namespace Registry

variable {σ : Type} [Strategy σ]

/-- No strategies. -/
def empty : Registry σ := {}

def names (r : Registry σ) : List String := r.strategies.map Strategy.name

def contains (r : Registry σ) (name : String) : Bool := r.names.contains name

/-- The registered names, as diagnostics show them. -/
def display (r : Registry σ) : String := Quoted.list r.names

/-- Adds a strategy, which must have a name of its own. Follows `StrategyRegistry::register`. -/
def register (r : Registry σ) (s : σ) : Except DeskError (Registry σ) :=
  let name := Strategy.name s
  if name = "" then .error (.invalidRegistration .unnamedStrategy)
  else if r.contains name then .error (.duplicateStrategy name)
  else .ok ⟨r.strategies ++ [s]⟩

/-- Starts every strategy. -/
def initAll (d : Desk) : List σ → List σ × Desk
  | [] => ([], d)
  | s :: rest =>
    let (s, d) := Strategy.init s d
    let (rest, d) := initAll d rest
    (s :: rest, d)

/-- Gives a tick to every strategy that is not held up by unconfirmed requests. -/
def tickAll (tick : Tick) (d : Desk) : List σ → Except Fault (List σ × Desk)
  | [] => .ok ([], d)
  | s :: rest => do
    let (ready, s, d) := Strategy.review s d
    let (s, d) ← if ready then Strategy.onTick s d tick else .ok (s, d)
    let (rest, d) ← tickAll tick d rest
    return (s :: rest, d)

/-- Releases every strategy. -/
def releaseAll (d : Desk) : List σ → List σ × Desk
  | [] => ([], d)
  | s :: rest =>
    let (s, d) := Strategy.release s d
    let (rest, d) := releaseAll d rest
    (s :: rest, d)

end Registry

end TradeDesk
