import TradeDesk.Strategy.Outlook

/-!
# State machines

A strategy that behaves differently in different modes. For every tick the observers fill a fresh
outlook, the current mode decides which mode comes next, and a mode that is switched to is
told so. A machine is assembled from registrations, and only if exactly one mode was registered for
every identifier; after that every mode that can be named is there.

Spec: `SPEC_FULL.md` §4.5. Follows `FsmBuilder` and `Fsm` of `strategy::fsm`.
-/

namespace TradeDesk

/-- A computation that cannot go on: a volume was to be held between bounds that are not in order. -/
inductive Fault where
  | volumeBounds
  deriving DecidableEq, Repr

/-- The identifiers of a machine's modes: all of them, listed, and the name of each. -/
class ModeId (ι : Type) [DecidableEq ι] where
  all : List ι
  mem_all : ∀ i : ι, i ∈ all
  label : ι → String

/-- Modes of a machine over identifiers `ι` that share data `δ`. -/
class Mode (μ : Type) (ι δ : outParam Type) where
  id : μ → ι
  /-- Called once, when the machine is assembled. -/
  init : μ → δ → μ × δ
  /-- Called when the machine switches to the mode. -/
  enter : μ → Desk → δ → μ × Desk × δ
  /-- Chooses the next mode. -/
  decide : μ → Desk → Tick → Outlook → δ → Except Fault (ι × μ × Desk × δ)

/-- Observers, which add to the outlook. -/
class Observer (ο : Type) where
  name : ο → String
  observe : ο → Desk → Tick → Outlook → ο × Desk × Outlook

/-- A machine: its modes by identifier, one for each, its observers in order, and the current mode. -/
structure Machine (ι μ ο δ : Type) [DecidableEq ι] where
  name : String
  modes : Table ι μ
  observers : List ο
  current : ι
  /-- The record of the last tick. -/
  outlook : Outlook
  data : δ
  complete : ∀ i, (modes.get? i).isSome

/-- A machine under assembly: what is registered so far, and the first registration that failed. -/
structure Blueprint (ι μ ο : Type) where
  name : String
  modes : Table ι μ := .empty
  observers : List ο := []
  initial : Option ι := none
  error : Option DeskError := none

namespace Blueprint

variable {ι μ ο δ : Type} [DecidableEq ι]

/-- Notes an error, unless one came before. -/
private def fail (b : Blueprint ι μ ο) (e : DeskError) : Blueprint ι μ ο :=
  { b with error := some (b.error.getD e) }

/-- Registers a mode under its identifier, which must be free. Follows `FsmBuilder::state`. -/
def mode [ModeId ι] [Mode μ ι δ] (b : Blueprint ι μ ο) (m : μ) : Blueprint ι μ ο :=
  let i := Mode.id m
  if b.modes.contains i then b.fail (.duplicateState (ModeId.label i))
  else { b with modes := b.modes.insert i m }

/-- Registers an observer, which must have a name of its own. Follows `FsmBuilder::handler`. -/
def observer [Observer ο] (b : Blueprint ι μ ο) (o : ο) : Blueprint ι μ ο :=
  let name := Observer.name o
  if name = "" then b.fail (.invalidRegistration .unnamedObserver)
  else if b.observers.any fun o' => Observer.name o' = name then b.fail (.duplicateHandler name)
  else { b with observers := b.observers ++ [o] }

/-- Sets the mode to start in. -/
def initialMode (b : Blueprint ι μ ο) (i : ι) : Blueprint ι μ ο := { b with initial := some i }

/-- Initializes the modes one after another. -/
def initModes [Mode μ ι δ] (modes : Table ι μ) (data : δ) : List ι → Table ι μ × δ
  | [] => (modes, data)
  | i :: rest =>
    match modes.get? i with
    | none => initModes modes data rest
    | some m =>
      let (m, data) := Mode.init m data
      initModes (modes.insert i m) data rest

theorem isSome_get?_initModes [Mode μ ι δ] (modes : Table ι μ) (data : δ) (ids : List ι) (i : ι)
    (h : (modes.get? i).isSome) : ((initModes modes data ids).1.get? i).isSome := by
  induction ids generalizing modes data with
  | nil => exact h
  | cons j rest ih =>
    unfold initModes
    split
    · exact ih _ _ h
    · exact ih _ _ (by rw [Table.get?_insert]; split <;> simp_all)

/-- The machine, or what is wrong: the first registration that failed, no mode to start in, or the
first identifier without a mode. Follows `FsmBuilder::build`. -/
def build [ModeId ι] [Mode μ ι δ] (b : Blueprint ι μ ο) (data : δ) :
    Except DeskError (Machine ι μ ο δ) :=
  match b.error with
  | some e => .error e
  | none =>
    match b.initial with
    | none => .error (.noInitialState b.name)
    | some initial =>
      match h : (ModeId.all (ι := ι)).find? fun i => (b.modes.get? i).isNone with
      | some missing => .error (.missingState (ModeId.label missing))
      | none =>
        let started := initModes b.modes data b.modes.keys
        .ok {
          name := b.name
          modes := started.1
          observers := b.observers
          current := initial
          outlook := .start ⟨"", "", ""⟩
          data := started.2
          complete := fun i => isSome_get?_initModes _ _ _ i <| by
            have := List.find?_eq_none.1 h i (ModeId.mem_all i)
            simpa [Option.isSome_iff_ne_none] using this }

end Blueprint

namespace Machine

variable {ι μ ο δ : Type} [DecidableEq ι]

/-- The mode of an identifier. -/
def mode (m : Machine ι μ ο δ) (i : ι) : μ := (m.modes.get? i).get (m.complete i)

/-- The machine with the mode of an identifier replaced. -/
def setMode (m : Machine ι μ ο δ) (i : ι) (mode : μ) : Machine ι μ ο δ :=
  { m with
    modes := m.modes.insert i mode
    complete := fun j => by
      rw [Table.get?_insert]; split
      · rfl
      · exact m.complete j }

/-- Every observer in turn. -/
def observeAll [Observer ο] (d : Desk) (tick : Tick) (c : Outlook) :
    List ο → List ο × Desk × Outlook
  | [] => ([], d, c)
  | o :: rest =>
    let (o, d, c) := Observer.observe o d tick c
    let (rest, d, c) := observeAll d tick c rest
    (o :: rest, d, c)

/-- One tick. The answer is the switch of modes, if there was one. Follows `Fsm::call`. -/
def step [Mode μ ι δ] [Observer ο] (m : Machine ι μ ο δ) (d : Desk) (tick : Tick) :
    Except Fault (Option (ι × ι) × Machine ι μ ο δ × Desk) := do
  let (observers, d, outlook) := observeAll d tick (.start tick.key) m.observers
  let m := { m with observers := observers, outlook := outlook }
  let source := m.current
  let (target, mode, d, data) ← Mode.decide (m.mode source) d tick outlook m.data
  let m := { m.setMode source mode with data := data }
  if target = source then return (none, m, d)
  else
    let (mode, d, data) := Mode.enter (m.mode target) d m.data
    let m := { m.setMode target mode with data := data, current := target }
    return (some (source, target), m, d)

end Machine

end TradeDesk
