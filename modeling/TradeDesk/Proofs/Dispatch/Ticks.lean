import TradeDesk.Proofs.Desk.Freshness
import TradeDesk.Proofs.Dispatch.Routing

/-!
# The way to the strategies

A tick changes the desk and goes to every strategy; what is no tick changes the desk as it would
without strategies.
-/

namespace TradeDesk

variable {e : Envelope} {tick : Tick}

namespace Registry

variable {σ : Type} [Strategy σ]

/-- The first strategy has the tick first, unless its own review passes the tick over. -/
theorem tickAll_cons (tick : Tick) (d : Desk) (s : σ) (rest : List σ) :
    tickAll tick d (s :: rest) =
      (if (Strategy.review s d).1 then
        Strategy.onTick (Strategy.review s d).2.1 (Strategy.review s d).2.2 tick
      else .ok (Strategy.review s d).2) >>= fun a =>
        tickAll tick a.2 rest >>= fun b => .ok (a.1 :: b.1, b.2) := by
  rw [tickAll]
  simp only
  split
  · rfl
  · rfl

/-- A tick goes to the strategies and is not claimed. -/
theorem handle_of_tick (r : Registry σ) (d : Desk) (h : e.tick? = some tick) :
    r.handle d e = (tickAll tick d r.strategies).map fun a => (false, ⟨a.1⟩, a.2) := by
  obtain ⟨hk, hd⟩ := Envelope.tick?_eq_some.mp h
  simp only [handle, hk, hd]
  cases tickAll tick d r.strategies with
  | ok a => rfl
  | error f => rfl

/-- What is no tick passes the strategies by, and so does a tick that does not decode. -/
theorem handle_of_no_tick (r : Registry σ) (d : Desk) (h : e.tick? = none) :
    ∃ claimed, r.handle d e = .ok (claimed, r, d) := by
  unfold handle
  split
  · next hk =>
    split
    · next tick hd =>
      rw [Envelope.tick?_eq_some.mpr ⟨hk, hd⟩] at h
      cases h
    · exact ⟨true, rfl⟩
  · exact ⟨false, rfl⟩

end Registry

namespace Link

variable {σ : Type} [Strategy σ]

/-- What is no tick changes nothing but the desk, and that as it does without strategies. -/
theorem dispatch_of_no_tick (f : Feed) (r : Registry σ) (processed : Nat) (d : Desk)
    (h : e.tick? = none) :
    ∃ claimer f', (chain f r processed).dispatch d e =
      .ok (claimer, chain f' r (processed + 1), d.act (.deliver e)) := by
  cases ha : Answers.handle d e with
  | mk claimed d₁ =>
    cases claimed with
    | true =>
      rw [Desk.act_of_claimed ha]
      exact ⟨_, f, dispatch_of_answer f r processed ha⟩
    | false =>
      rw [Desk.act_of_passed ha f]
      cases hm : f.handle d₁ e with
      | mk claimed rest =>
        obtain ⟨f', d₂⟩ := rest
        cases claimed with
        | true => exact ⟨_, f', dispatch_of_market r processed ha hm⟩
        | false =>
          obtain ⟨claimed, hr⟩ := r.handle_of_no_tick d₂ h
          refine ⟨if claimed then some "strategy" else none, f', ?_⟩
          rw [dispatch_of_passed r processed ha hm, hr]
          rfl

/-- A tick goes to the strategies once it has changed the desk. -/
theorem dispatch_of_tick (f : Feed) (r : Registry σ) (processed : Nat) (d : Desk)
    (h : e.tick? = some tick) :
    (chain f r processed).dispatch d e =
      (Registry.tickAll tick (d.act (.deliver e)) r.strategies).map fun a =>
        (none, chain f ⟨a.1⟩ (processed + 1), a.2) := by
  have ha := Answers.handle_of_tick d h
  have hm := f.handle_of_tick (d.reprice tick) h
  rw [dispatch_of_passed r processed ha hm, r.handle_of_tick _ h, Desk.act_of_passed ha f, hm]
  cases Registry.tickAll tick _ r.strategies with
  | ok a => rfl
  | error f => rfl

end Link

end TradeDesk
