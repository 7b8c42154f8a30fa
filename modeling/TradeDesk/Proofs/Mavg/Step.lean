import TradeDesk.Proofs.Mavg.Decisions
import TradeDesk.Proofs.Strategy.Step

/-!
# One tick of the moving-average strategy

The observers only look. What the current mode decides on what they see is carried out, and the
machine turns to the mode that is to be next.
-/

namespace TradeDesk

namespace Mavg

variable {d d' : Desk} {tick : Tick} {m m' : StrategyMachine}

/-- The observers leave the desk alone, and the position that they see is the cached one. -/
theorem observeAll_eq (d : Desk) (tick : Tick) (o : Outlook) (watches : List Watch) :
    (Machine.observeAll d tick o watches).2.1 = d ∧
      (Machine.observeAll d tick o watches).2.2.key = o.key ∧
      ((Machine.observeAll d tick o watches).2.2.position = o.position ∨
        (Machine.observeAll d tick o watches).2.2.position = d.ledger.positions.get? tick.key) := by
  induction watches generalizing o with
  | nil => exact ⟨rfl, rfl, Or.inl rfl⟩
  | cons w rest ih =>
    cases w with
    | position =>
      obtain ⟨hd, hk, hp⟩ := ih (Watch.seePosition d tick o)
      have hsee : (Watch.seePosition d tick o).key = o.key ∧
          (Watch.seePosition d tick o).position = d.ledger.positions.get? tick.key := by
        unfold Watch.seePosition
        simp only
        split
        · exact ⟨rfl, rfl⟩
        · exact ⟨rfl, rfl⟩
      rw [hsee.2, or_self] at hp
      exact ⟨hd, hk.trans hsee.1, Or.inr hp⟩
    | signal r => exact ih (Watch.seeSignal r d o)

/-- What the observers of the machine see on a tick. -/
def seen (m : StrategyMachine) (d : Desk) (tick : Tick) : Outlook :=
  (Machine.observeAll d tick (.start tick.key) m.observers).2.2

theorem key_seen (m : StrategyMachine) (d : Desk) (tick : Tick) : (seen m d tick).key = tick.key :=
  (observeAll_eq d tick (.start tick.key) m.observers).2.1

/-- Only the cached position is seen. -/
theorem position_seen (m : StrategyMachine) (d : Desk) (tick : Tick) :
    (seen m d tick).position = none ∨
      (seen m d tick).position = d.ledger.positions.get? tick.key :=
  (observeAll_eq d tick (.start tick.key) m.observers).2.2

/-- What the current mode decides on a tick. -/
def decided (m : StrategyMachine) (d : Desk) (tick : Tick) : Decision :=
  (m.mode m.current).decision d tick (seen m d tick) m.data

/-- Entering a mode leaves the desk alone. -/
theorem enter_desk (m : ModeState) (d : Desk) (data : Data) : (Mode.enter m d data).2.1 = d := by
  cases m with
  | normal opens => rfl
  | defense => rfl
  | shutdown since shutdowns => rfl

/-- What one tick makes of the machine and the desk: the deals of the decision are carried out, and
if another mode is to be next, that mode is entered. -/
structure Stepped (m : StrategyMachine) (d : Desk) (tick : Tick) (m' : StrategyMachine)
    (d' : Desk) : Prop where
  target_eq : (decided m d tick).target = .ok m'.current
  desk_eq : d' = (Deal.carryAll (decided m d tick).deals (d, m.data)).1
  stays : m'.current = m.current →
    m'.data = (Deal.carryAll (decided m d tick).deals (d, m.data)).2 ∧
      ∀ i, m'.mode i = if i = m.current then (m.mode m.current).after (decided m d tick).deals
        else m.mode i
  turns : m'.current ≠ m.current →
    m'.data = (Mode.enter (m.mode m'.current) d'
      (Deal.carryAll (decided m d tick).deals (d, m.data)).2).2.2 ∧
      ∀ i, m'.mode i = if i = m'.current then (Mode.enter (m.mode m'.current) d'
          (Deal.carryAll (decided m d tick).deals (d, m.data)).2).1
        else if i = m.current then (m.mode m.current).after (decided m d tick).deals
        else m.mode i

theorem stepped_of_step {moved : Option (ModeName × ModeName)}
    (h : m.step d tick = .ok (moved, m', d')) : Stepped m d tick m' d' := by
  obtain ⟨target, mode, d₁, data, hdecide, rfl, hstay, hturn⟩ := Machine.step_eq_ok h
  rw [(observeAll_eq d tick (.start tick.key) m.observers).1, decide_eq, Decision.carryOut]
    at hdecide
  obtain ⟨t, htarget, hpair⟩ := Except.map_eq_ok.mp hdecide
  simp only [Prod.mk.injEq] at hpair
  obtain ⟨rfl, rfl, hcarry⟩ := hpair
  have hdesk : d₁ = (Deal.carryAll (decided m d tick).deals (d, m.data)).1 :=
    (congrArg Prod.fst hcarry).symm
  have hdata : data = (Deal.carryAll (decided m d tick).deals (d, m.data)).2 :=
    (congrArg Prod.snd hcarry).symm
  by_cases hcurrent : m'.current = m.current
  · obtain ⟨rfl, hdata', hmode⟩ := hstay hcurrent
    exact ⟨htarget, hdesk, fun _ ↦ ⟨hdata'.trans hdata, hmode⟩, fun hne ↦ absurd hcurrent hne⟩
  · obtain ⟨hdesk', hdata', hmode⟩ := hturn hcurrent
    rw [enter_desk] at hdesk'
    subst hdesk'
    subst hdata
    exact ⟨htarget, hdesk, fun heq ↦ absurd heq hcurrent, fun _ ↦ ⟨hdata', hmode⟩⟩

/-- The machine fails on a tick only where the decision does. -/
theorem target_of_step_error {f : Fault} (h : m.step d tick = .error f) :
    (decided m d tick).target = .error f := by
  have hdecide := Machine.step_eq_error h
  rw [(observeAll_eq d tick (.start tick.key) m.observers).1, decide_eq, Decision.carryOut]
    at hdecide
  exact Except.map_eq_error.mp hdecide

end Mavg

namespace MavgStrategy

open Mavg

variable {s s' : MavgStrategy} {d d' : Desk} {tick : Tick}

/-- The machine as it is when a tick comes to it. -/
def clocked (s : MavgStrategy) (tick : Tick) : StrategyMachine :=
  { s.machine with data := { s.machine.data with clock := tick.seconds } }

/-- A tick that is not followed changes nothing, and any other is one step of the machine. -/
theorem onTick_eq_ok (h : s.onTick d tick = .ok (s', d')) :
    s.follows.contains tick.key = false ∧ s' = s ∧ d' = d ∨
      s.follows.contains tick.key = true ∧ s'.follows = s.follows ∧
        Stepped (s.clocked tick) d tick s'.machine d' := by
  unfold onTick at h
  split at h
  · next hfollowed =>
    obtain ⟨⟨moved, machine, d₁⟩, hstep, h⟩ := Except.bind_eq_ok.mp h
    cases h
    exact Or.inr ⟨hfollowed, rfl, stepped_of_step hstep⟩
  · next hother =>
    cases h
    exact Or.inl ⟨Bool.eq_false_iff.mpr hother, rfl, rfl⟩

/-- The strategy fails on a tick only where the decision of its machine does. -/
theorem target_of_onTick_error {f : Fault} (h : s.onTick d tick = .error f) :
    (decided (s.clocked tick) d tick).target = .error f := by
  unfold onTick at h
  split at h
  · cases Except.bind_eq_error.mp h with
    | inl hstep => exact target_of_step_error hstep
    | inr hrest =>
      obtain ⟨⟨moved, machine, d₁⟩, -, h⟩ := hrest
      cases h
  · cases h

end MavgStrategy

end TradeDesk
