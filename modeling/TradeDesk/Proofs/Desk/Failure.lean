import TradeDesk.Mavg.Strategy
import TradeDesk.Proofs.Desk.Freshness
import TradeDesk.Proofs.Desk.Settlement
import TradeDesk.Proofs.Dispatch.Routing

/-!
# Answers that fail

An answer fails when its venue has no trader, when it does not decode, and when it carries an error.
It leaves the accounts as they were. An order that was refused still makes the desk ask for the
balance and the position, and a transfer that failed for the balance.
-/

namespace TradeDesk

namespace Answer

/-- What an answer that carries an error makes the desk ask for. -/
theorem requests_of_error {a : Answer} (h : a.status.isOk = false) (exchange : String) :
    a.requests exchange =
      match a with
      | placed r => [.account, .position ⟨exchange, r.symbol, r.contract⟩]
      | transferred _ => [.account]
      | report _ | canceled _ => [] := by
  cases a with
  | report _ => rfl
  | placed r => simp [requests, show r.status.isOk = false from h]
  | canceled r => simp [requests, show r.status.isOk = false from h]
  | transferred _ => rfl

end Answer

namespace Desk

/-- An answer fails at a desk: its venue has no trader, or it does not decode, or it carries an
error. -/
def Fails (d : Desk) (e : Envelope) : Prop :=
  d.traders.contains e.source = false ∨ e.answer? = none ∨
    ∃ a, e.answer? = some a ∧ a.status.errorId ≠ 0

variable {d : Desk} {e : Envelope}

/-- After an answer that carries an error the desk only asks. -/
theorem settle_of_error (d : Desk) (exchange : String) (serial : UInt32) {a : Answer}
    (h : a.status.isOk = false) :
    d.settle exchange serial a = d.requestAll exchange (a.requests exchange) := by
  rw [settle, Answer.settle_of_error h]
  rfl

/-- An answer that fails and still gets to the ledger carries an error. -/
theorem Fails.isOk_eq_false (h : d.Fails e) {a : Answer} (ha : d.answer? e = some a) :
    e.answer? = some a ∧ a.status.isOk = false := by
  unfold answer? at ha
  split at ha
  · next hx =>
    refine ⟨ha, ?_⟩
    rcases h with hx' | hnone | ⟨a', ha', he⟩
    · rw [hx] at hx'
      cases hx'
    · rw [hnone] at ha
      cases ha
    · rw [ha] at ha'
      cases ha'
      exact decide_eq_false he
  · cases ha

end Desk

/-- Dispatching an answer that fails changes nothing but what was published and the serial, and
those only for two kinds of answers: an order that was refused makes the desk ask for its balance and
then for the position of its instrument, and a transfer that failed makes it ask for the balance. -/
theorem Link.dispatch_of_fails {σ : Type} [Strategy σ] (f : Feed) (r : Registry σ)
    (processed : Nat) {d : Desk} {e : Envelope} (he : e.isAnswer = true) (h : d.Fails e) :
    ∃ d', (chain f r processed).dispatch d e =
        .ok (some "trade", chain f r (processed + 1), d') ∧
      d'.ledger = d.ledger ∧ d'.bars = d.bars ∧ d'.quotes = d.quotes ∧
      d' =
        match d.traders.get? e.source, e.answer? with
        | some t, some (.placed p) =>
          (d.post t .account).post t (.position ⟨e.source, p.symbol, p.contract⟩)
        | some t, some (.transferred _) => d.post t .account
        | _, _ => d := by
  refine ⟨_, dispatch_of_answer f r processed (Answers.handle_of_isAnswer d he), ?_⟩
  cases hx : d.traders.get? e.source with
  | none =>
    have hnone : d.answer? e = none := by
      rw [Desk.answer?, Table.contains, hx]
      rfl
    rw [hnone]
    exact ⟨rfl, rfl, rfl, rfl⟩
  | some t =>
    have hanswer : d.answer? e = e.answer? := by
      rw [Desk.answer?, Table.contains, hx]
      rfl
    cases hd : d.answer? e with
    | none =>
      rw [← hanswer, hd]
      exact ⟨rfl, rfl, rfl, rfl⟩
    | some a =>
      obtain ⟨ha, hok⟩ := h.isOk_eq_false hd
      simp only [ha, Desk.settle_of_error d e.source e.reqSerial hok,
        Answer.requests_of_error hok]
      cases a with
      | report _ => exact ⟨rfl, rfl, rfl, rfl⟩
      | placed p =>
        rw [Desk.requestAll_of_some hx]
        exact ⟨rfl, rfl, rfl, rfl⟩
      | canceled _ => exact ⟨rfl, rfl, rfl, rfl⟩
      | transferred _ =>
        rw [Desk.requestAll_of_some hx]
        exact ⟨rfl, rfl, rfl, rfl⟩

/-- The answer to the first order of a desk, which the venue refuses. -/
def refusal : Envelope :=
  .encode .placeAnswer 1 quarterly.exchange
    (⟨⟨20016, "insufficient margin"⟩, quarterly.symbol, quarterly.contract, ""⟩ : PlaceResponse)

/-- After the refusal the order is still pending, and two queries have gone out: one for the balances of
the venue and one for the position of the instrument. -/
theorem Link.dispatch_of_refusal :
    let d := (Desk.ofTraders [⟨quarterly.exchange, .empty⟩] (.empty [] 30) 3).act oneContract
    refusal.isAnswer = true ∧ d.Fails refusal ∧
      ∃ d', (chain {} ({} : Registry MavgStrategy) 0).dispatch d refusal =
          .ok (some "trade", chain {} {} 1, d') ∧
        d'.ledger = d.ledger ∧ d'.ledger.pending.contains 1 = true ∧ d'.lastSerial = 3 ∧
        d'.outbox.sent.toList.map (fun e => (e.kind?, e.reqSerial)) =
          [(some .placeOrder, 1), (some .queryMoney, 2), (some .queryPosition, 3)] ∧
        d'.outbox.sent.toList.drop 1 =
          [.encode .queryMoney 2 quarterly.exchange (⟨quarterly.exchange⟩ : MoneyQuery),
            .encode .queryPosition 3 quarterly.exchange (⟨quarterly⟩ : PositionQuery)] := by
  intro d
  have hsome : refusal.answer?.isSome := by decide +kernel
  have herror : ∀ a ∈ refusal.answer?, a.status.errorId ≠ 0 := by decide +kernel
  have hfails : d.Fails refusal :=
    Or.inr (Or.inr ⟨_, (Option.some_get hsome).symm, herror _ (Option.get_mem hsome)⟩)
  have hanswer : refusal.isAnswer = true := by decide
  obtain ⟨d', hdispatch, hledger, -, -, hd⟩ :=
    dispatch_of_fails {} ({} : Registry MavgStrategy) 0 hanswer hfails
  refine ⟨hanswer, hfails, d', hdispatch, hledger, ?_, ?_, ?_, ?_⟩
  · rw [hledger]
    decide +kernel
  · rw [hd]
    decide +kernel
  · rw [hd]
    decide +kernel
  · rw [hd]
    decide +kernel

end TradeDesk
