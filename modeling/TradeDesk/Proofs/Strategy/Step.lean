import TradeDesk.Proofs.Fault
import TradeDesk.Strategy.Machine

/-!
# What machines begin with, and one tick

A machine begins with the observers that were registered and with its modes initialized. On a tick the
observers look first, and what the current mode decides on what they see tells the rest.
-/

namespace TradeDesk

theorem Blueprint.build_eq_ok {ι μ ο δ : Type} [DecidableEq ι] [ModeId ι] [Mode μ ι δ]
    {b : Blueprint ι μ ο} {data : δ} {m : Machine ι μ ο δ} (h : b.build data = .ok m) :
    m.modes = (initModes b.modes data b.modes.keys).1 ∧
      m.data = (initModes b.modes data b.modes.keys).2 ∧ m.observers = b.observers := by
  unfold build at h
  split at h
  · cases h
  · split at h
    · cases h
    · split at h
      · cases h
      · cases h
        exact ⟨rfl, rfl, rfl⟩

namespace Machine

variable {ι μ ο δ : Type} [DecidableEq ι] {m : Machine ι μ ο δ}

/-- The mode of an identifier after that of another was replaced, or its own. -/
theorem mode_setMode (m : Machine ι μ ο δ) (i : ι) (mode : μ) (j : ι) :
    (m.setMode i mode).mode j = if j = i then mode else m.mode j := by
  apply Option.some.inj
  rw [Machine.mode, Option.some_get]
  simp only [setMode, Table.get?_insert]
  split
  · rfl
  · rw [Machine.mode, Option.some_get]

variable [Mode μ ι δ] [Observer ο] {m' : Machine ι μ ο δ} {d d' : Desk} {tick : Tick}
  {moved : Option (ι × ι)}

/-- What one tick makes of a machine: the current mode decides on what the observers see, and if
another mode is to be next, that mode is entered. -/
theorem step_eq_ok (h : m.step d tick = .ok (moved, m', d')) :
    ∃ (target : ι) (mode : μ) (d₁ : Desk) (data : δ),
      Mode.decide (m.mode m.current) (observeAll d tick (.start tick.key) m.observers).2.1 tick
        (observeAll d tick (.start tick.key) m.observers).2.2 m.data =
          .ok (target, mode, d₁, data) ∧
      m'.current = target ∧
      (target = m.current → d' = d₁ ∧ m'.data = data ∧
        ∀ i, m'.mode i = if i = m.current then mode else m.mode i) ∧
      (target ≠ m.current → d' = (Mode.enter (m.mode target) d₁ data).2.1 ∧
        m'.data = (Mode.enter (m.mode target) d₁ data).2.2 ∧
        ∀ i, m'.mode i = if i = target then (Mode.enter (m.mode target) d₁ data).1
          else if i = m.current then mode else m.mode i) := by
  unfold step at h
  obtain ⟨⟨target, mode, d₁, data⟩, hdecide, h⟩ := Except.bind_eq_ok.mp h
  refine ⟨target, mode, d₁, data, hdecide, ?_⟩
  simp only at h
  split at h
  · next heq =>
    cases h
    exact ⟨heq.symm, fun _ ↦ ⟨rfl, rfl, m.mode_setMode m.current mode⟩, fun hne ↦ absurd heq hne⟩
  · next hne =>
    have htarget : (m.setMode m.current mode).mode target = m.mode target := by
      rw [mode_setMode, if_neg hne]
    cases h
    rw [← htarget]
    refine ⟨rfl, fun heq ↦ absurd heq hne, fun _ ↦ ⟨rfl, rfl, fun i ↦ ?_⟩⟩
    rw [← mode_setMode m m.current mode i]
    exact (m.setMode m.current mode).mode_setMode target _ i

/-- A machine fails on a tick only where its current mode does. -/
theorem step_eq_error {f : Fault} (h : m.step d tick = .error f) :
    Mode.decide (m.mode m.current) (observeAll d tick (.start tick.key) m.observers).2.1 tick
      (observeAll d tick (.start tick.key) m.observers).2.2 m.data = .error f := by
  unfold step at h
  cases Except.bind_eq_error.mp h with
  | inl hdecide => exact hdecide
  | inr hrest =>
    obtain ⟨⟨target, mode, d₁, data⟩, -, h⟩ := hrest
    simp only at h
    split at h
    · cases h
    · cases h

end Machine

end TradeDesk
