import TradeDesk.Proofs.Mavg.Cooldown

/-!
# What the moving-average strategy sees

On every tick that it decides on, the strategy sees what the desk holds at that moment, and nothing
else: its observers leave the desk and themselves alone, and the outlook of the tick before is gone.
-/

namespace TradeDesk

namespace Machine

variable {ι μ ο δ : Type} [DecidableEq ι] [Mode μ ι δ]

/-- The second half of a tick: the current mode decides on the outlook that the machine holds, and
if another mode is to be next, that mode is entered. -/
def advance (m : Machine ι μ ο δ) (d : Desk) (tick : Tick) :
    Except Fault (Option (ι × ι) × Machine ι μ ο δ × Desk) := do
  let source := m.current
  let (target, mode, d, data) ← Mode.decide (m.mode source) d tick m.outlook m.data
  let m := { m.setMode source mode with data := data }
  if target = source then return (none, m, d)
  else
    let (mode, d, data) := Mode.enter (m.mode target) d m.data
    let m := { m.setMode target mode with data := data, current := target }
    return (some (source, target), m, d)

/-- A tick is decided on the outlook that the observers make of it. -/
theorem step_eq_advance [Observer ο] (m : Machine ι μ ο δ) (d : Desk) (tick : Tick) :
    m.step d tick =
      { m with
        observers := (observeAll d tick (.start tick.key) m.observers).1
        outlook := (observeAll d tick (.start tick.key) m.observers).2.2 }.advance
          (observeAll d tick (.start tick.key) m.observers).2.1 tick :=
  rfl

variable {m m' : Machine ι μ ο δ} {d d' : Desk} {tick : Tick} {moved : Option (ι × ι)}

/-- To decide changes neither the observers nor the outlook. -/
theorem frame_advance (h : m.advance d tick = .ok (moved, m', d')) :
    m'.observers = m.observers ∧ m'.outlook = m.outlook := by
  obtain ⟨⟨target, mode, d₁, data⟩, -, h⟩ := Except.bind_eq_ok.mp h
  simp only at h
  split at h
  · cases h
    exact ⟨rfl, rfl⟩
  · cases h
    exact ⟨rfl, rfl⟩

end Machine

namespace Mavg

/-- What the strategy watches: the position and balance, and the signal of its settings. -/
def watches (settings : MavgSettings) : List Watch :=
  [.position, .signal (.ofSettings settings)]

/-- What there is to see on a desk about an instrument: the cached position, the balance of its
symbol, zero if there is none, and the signal. -/
def outlookOn (d : Desk) (r : SignalReader) (key : Instrument) : Outlook where
  key := key
  position := d.ledger.positions.get? key
  balance := ((d.ledger.money.get? (key.exchange, key.symbol)).map (·.balance)).getD 0.0
  rights := ((d.ledger.money.get? (key.exchange, key.symbol)).map (·.rights)).getD 0.0
  signals := Table.empty.insert r.timeframe (r.signal d key)

/-- The strategy's observers see what there is, and change nothing. -/
theorem observeAll_watches (d : Desk) (tick : Tick) (settings : MavgSettings) :
    Machine.observeAll d tick (.start tick.key) (watches settings) =
      (watches settings, d, outlookOn d (.ofSettings settings) tick.key) := by
  show (watches settings, d, Watch.seeSignal (.ofSettings settings) d
    (Watch.seePosition d tick (.start tick.key))) = _
  unfold Watch.seePosition outlookOn
  cases d.ledger.money.get? (tick.key.exchange, tick.key.symbol) with
  | none => rfl
  | some m => rfl

/-- What a strategy sees is told by positions, balances and bars. -/
theorem outlookOn_congr {d d' : Desk} (hmoney : d'.ledger.money = d.ledger.money)
    (hbars : d'.bars = d.bars) (r : SignalReader) (key : Instrument) :
    outlookOn d' r key =
      { outlookOn d r key with position := d'.ledger.positions.get? key } := by
  have hsignal : r.signal d' key = r.signal d key := by
    unfold SignalReader.signal SignalReader.read?
    rw [hbars]
  rw [outlookOn, hmoney, hsignal]
  rfl

end Mavg

namespace MavgStrategy

open Mavg

variable {s s' : MavgStrategy} {settings : MavgSettings} {d d' : Desk} {tick : Tick}

/-- A followed tick is decided on what there is to see on the desk, whatever was seen before. -/
theorem onTick_eq (hs : s.machine.observers = watches settings) (d : Desk) (tick : Tick) :
    s.onTick d tick =
      if s.follows.contains tick.key then do
        let (_, machine, d) ← { s.clocked tick with
          outlook := outlookOn d (.ofSettings settings) tick.key }.advance d tick
        return ({ s with machine := machine }, d)
      else .ok (s, d) := by
  have hstep : (s.clocked tick).step d tick =
      { s.clocked tick with
        outlook := outlookOn d (.ofSettings settings) tick.key }.advance d tick := by
    have hobservers : (s.clocked tick).observers = watches settings := hs
    rw [Machine.step_eq_advance, hobservers, observeAll_watches, ← hobservers]
  unfold onTick
  split
  · show (s.clocked tick).step d tick >>= _ = _
    rw [hstep]
  · rfl

/-- A strategy watches the same after every tick. -/
theorem observers_onTick (hs : s.machine.observers = watches settings)
    (h : s.onTick d tick = .ok (s', d')) : s'.machine.observers = watches settings := by
  rw [onTick_eq hs] at h
  split at h
  · obtain ⟨⟨moved, machine, d₁⟩, hadvance, h⟩ := Except.bind_eq_ok.mp h
    cases h
    exact (Machine.frame_advance hadvance).1.trans hs
  · cases h
    exact hs

/-- A strategy watches from the start what its settings say. -/
theorem observers_ofSettings (h : ofSettings settings = .ok s) :
    s.machine.observers = watches settings := by
  obtain ⟨machine, hbuild, h⟩ := Except.bind_eq_ok.mp h
  cases h
  exact (Blueprint.build_eq_ok hbuild).2.2

/-- A strategy watches the same after ticks. -/
theorem observers_through {ticks : List (Desk × Tick)}
    (hs : s.machine.observers = watches settings) (h : s.through ticks = .ok s') :
    s'.machine.observers = watches settings :=
  holds_through (fun _ _ _ _ _ hs hfirst ↦ observers_onTick hs hfirst) hs h

end MavgStrategy

end TradeDesk
