import TradeDesk.Dispatch.Link

/-!
# The way of an envelope

What becomes of one envelope in the chain of a desk: the answers' handler has it first, then the
reader of market data, then the strategies.
-/

namespace TradeDesk

namespace Chain

variable {η γ : Type} [Handler η γ]

/-- A handler that claims an envelope ends its walk. -/
theorem walk_of_claimed {e : Envelope} {s s' : γ} {h h' : η} (rest : List η)
    (hh : Handler.handle h s e = .ok (true, h', s')) :
    walk e s (h :: rest) = .ok (some (Handler.name h'), h' :: rest, s') := by
  rw [walk, hh]
  rfl

/-- An envelope that a handler does not claim walks on. -/
theorem walk_of_passed {e : Envelope} {s s' : γ} {h h' : η} (rest : List η)
    (hh : Handler.handle h s e = .ok (false, h', s')) :
    walk e s (h :: rest) = (walk e s' rest).map fun r => (r.1, h' :: r.2.1, r.2.2) := by
  rw [walk, hh]
  cases hw : walk e s' rest with
  | error fault =>
    show (walk e s' rest >>= _) = _
    rw [hw]
    rfl
  | ok r =>
    show (walk e s' rest >>= _) = _
    rw [hw]
    rfl

end Chain

namespace Link

variable {σ : Type} [Strategy σ]

/-- The chain of a desk after `processed` envelopes. -/
def chain (f : Feed) (r : Registry σ) (processed : Nat) : Chain (Link σ) :=
  ⟨[.answers, .market f, .strategies r], processed⟩

variable {f f' : Feed} {r : Registry σ} {processed : Nat} {d d₁ d₂ : Desk} {e : Envelope}

private theorem handle_answers {claimed : Bool} (ha : Answers.handle d e = (claimed, d₁)) :
    Handler.handle (answers : Link σ) d e = .ok (claimed, answers, d₁) := by
  show Except.ok ((Answers.handle d e).1, answers, (Answers.handle d e).2) = _
  rw [ha]

private theorem handle_market {claimed : Bool} (hm : f.handle d₁ e = (claimed, f', d₂)) :
    Handler.handle (market f : Link σ) d₁ e = .ok (claimed, market f', d₂) := by
  show Except.ok ((f.handle d₁ e).1, market (f.handle d₁ e).2.1, (f.handle d₁ e).2.2) = _
  rw [hm]

/-- An envelope that the answers' handler claims goes no further. -/
theorem dispatch_of_answer (f : Feed) (r : Registry σ) (processed : Nat)
    (ha : Answers.handle d e = (true, d₁)) :
    (chain f r processed).dispatch d e = .ok (some "trade", chain f r (processed + 1), d₁) := by
  rw [Chain.dispatch, chain, Chain.walk_of_claimed _ (handle_answers ha)]
  rfl

/-- An envelope that the reader of market data claims does not reach the strategies. -/
theorem dispatch_of_market (r : Registry σ) (processed : Nat)
    (ha : Answers.handle d e = (false, d₁)) (hm : f.handle d₁ e = (true, f', d₂)) :
    (chain f r processed).dispatch d e = .ok (some "quote", chain f' r (processed + 1), d₂) := by
  rw [Chain.dispatch, chain, Chain.walk_of_passed _ (handle_answers ha),
    Chain.walk_of_claimed _ (handle_market hm)]
  rfl

/-- An envelope that neither claims goes to the strategies. -/
theorem dispatch_of_passed (r : Registry σ) (processed : Nat)
    (ha : Answers.handle d e = (false, d₁)) (hm : f.handle d₁ e = (false, f', d₂)) :
    (chain f r processed).dispatch d e = (r.handle d₂ e).map fun a =>
      (if a.1 then some "strategy" else none, chain f' a.2.1 (processed + 1), a.2.2) := by
  rw [Chain.dispatch, chain, Chain.walk_of_passed _ (handle_answers ha),
    Chain.walk_of_passed _ (handle_market hm)]
  cases hs : r.handle d₂ e with
  | error fault =>
    have hl : Handler.handle (strategies r) d₂ e = .error fault := by
      show (r.handle d₂ e >>= _) = _
      rw [hs]
      rfl
    rw [Chain.walk, hl]
    rfl
  | ok a =>
    obtain ⟨claimed, r', d₃⟩ := a
    have hl : Handler.handle (strategies r) d₂ e = .ok (claimed, strategies r', d₃) := by
      show (r.handle d₂ e >>= _) = _
      rw [hs]
      rfl
    cases claimed with
    | true =>
      rw [Chain.walk_of_claimed _ hl]
      rfl
    | false =>
      rw [Chain.walk_of_passed _ hl]
      rfl

end Link

end TradeDesk
