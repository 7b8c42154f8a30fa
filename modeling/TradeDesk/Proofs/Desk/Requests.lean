import TradeDesk.Proofs.Account.Pending
import TradeDesk.Proofs.Desk.Settlement

/-!
# What a desk makes of requests and their answers

Every request takes a new serial, until there are none left. An order or a cancellation is noted
under its serial, and an answer that confirms it removes it; nothing else that happens to a desk but
a strategy's look changes what is pending.
-/

namespace TradeDesk

/-! ### Answers -/

namespace Answer

/-- An answer that confirms an order or a cancellation. -/
def confirms : Answer → Bool
  | placed r => r.status.isOk
  | canceled r => r.status.isOk
  | report _ | transferred _ => false

/-- Of what is pending an answer removes the request that it confirms. -/
theorem pending_settle (k : Ledger) (exchange : String) (serial : UInt32) (a : Answer) :
    (a.settle k exchange serial).pending =
      if a.confirms then (k.pending.remove serial).2 else k.pending := by
  have hconfirm : ∀ status : ApiStatus, (k.confirm status serial).pending =
      if status.isOk then (k.pending.remove serial).2 else k.pending := by
    intro status
    unfold Ledger.confirm
    split
    · rfl
    · rfl
  cases a with
  | report r =>
    cases r with
    | money r =>
      obtain ⟨money, hm⟩ := k.applyMoney_eq exchange r
      show (k.applyMoney exchange r).2.pending = _
      rw [hm]
      rfl
    | orders r =>
      obtain ⟨orders, ho⟩ := k.applyOrders_eq exchange r
      show (k.applyOrders exchange r).2.pending = _
      rw [ho]
      rfl
    | positions r =>
      obtain ⟨positions, hp⟩ := k.applyPositions_eq exchange r
      show (k.applyPositions exchange r).2.pending = _
      rw [hp]
      rfl
  | placed r => exact hconfirm r.status
  | canceled r => exact hconfirm r.status
  | transferred r => rfl

end Answer

namespace Envelope

/-- An answer that confirms an order or a cancellation: it decodes and carries no error. -/
def confirms (e : Envelope) : Bool :=
  match e.kind? with
  | some .placeAnswer =>
    match (e.decode : Except DeskError PlaceResponse) with
    | .ok r => r.status.isOk
    | .error _ => false
  | some .cancelAnswer =>
    match (e.decode : Except DeskError CancelResponse) with
    | .ok r => r.status.isOk
    | .error _ => false
  | _ => false

/-- A tick confirms nothing. -/
theorem confirms_of_tick {e : Envelope} {tick : Tick} (h : e.tick? = some tick) :
    e.confirms = false := by
  rw [confirms, (tick?_eq_some.mp h).1]

/-- How many requests the desk makes in response to an answer. -/
def followUps (e : Envelope) : Nat :=
  match e.kind? with
  | some .placeAnswer =>
    match (e.decode : Except DeskError PlaceResponse) with
    | .ok r => if r.status.isOk then 3 else 2
    | .error _ => 0
  | some .cancelAnswer =>
    match (e.decode : Except DeskError CancelResponse) with
    | .ok r => if r.status.isOk then (r.success ++ r.errors).length else 0
    | .error _ => 0
  | some .transferAnswer =>
    match (e.decode : Except DeskError TransferResponse) with
    | .ok _ => 1
    | .error _ => 0
  | _ => 0

/-- An envelope confirms what its answer confirms. -/
theorem confirms_eq (e : Envelope) : e.confirms = e.answer?.any Answer.confirms := by
  unfold confirms answer?
  cases e.kind? with
  | none => rfl
  | some kind =>
    cases kind with
    | moneyAnswer => cases (e.decode : Except DeskError MoneyResponse) <;> rfl
    | positionAnswer => cases (e.decode : Except DeskError PositionResponse) <;> rfl
    | ordersAnswer => cases (e.decode : Except DeskError OrdersResponse) <;> rfl
    | placeAnswer => cases (e.decode : Except DeskError PlaceResponse) <;> rfl
    | cancelAnswer => cases (e.decode : Except DeskError CancelResponse) <;> rfl
    | transferAnswer => cases (e.decode : Except DeskError TransferResponse) <;> rfl
    | _ => rfl

/-- The desk makes the requests that an answer makes it make. -/
theorem followUps_eq (e : Envelope) :
    e.followUps = (e.answer?.map fun a => (a.requests e.source).length).getD 0 := by
  unfold followUps answer?
  cases e.kind? with
  | none => rfl
  | some kind =>
    cases kind with
    | moneyAnswer => cases (e.decode : Except DeskError MoneyResponse) <;> rfl
    | positionAnswer => cases (e.decode : Except DeskError PositionResponse) <;> rfl
    | ordersAnswer => cases (e.decode : Except DeskError OrdersResponse) <;> rfl
    | placeAnswer =>
      cases (e.decode : Except DeskError PlaceResponse) with
      | ok r => by_cases hok : r.status.isOk <;> simp [Answer.requests, Except.toOption, hok]
      | error err => rfl
    | cancelAnswer =>
      cases (e.decode : Except DeskError CancelResponse) with
      | ok r => by_cases hok : r.status.isOk <;> simp [Answer.requests, Except.toOption, hok]
      | error err => rfl
    | transferAnswer => cases (e.decode : Except DeskError TransferResponse) <;> rfl
    | _ => rfl

end Envelope

/-! ### Serials and what is pending -/

namespace Desk

/-- The next serial is the next number, as long as there is one. -/
theorem toNat_nextSerial {serial : UInt32} (h : serial.toNat + 1 < UInt32.size) :
    (nextSerial serial).toNat = serial.toNat + 1 := by
  have hadd : (serial + 1).toNat = serial.toNat + 1 := by
    rw [UInt32.toNat_add]
    exact Nat.mod_eq_of_lt h
  have hne : serial + 1 ≠ 0 := by
    intro h0
    rw [h0] at hadd
    cases hadd
  rw [nextSerial, if_neg hne, hadd]

/-- The next serial is not beyond the next number. -/
theorem toNat_nextSerial_le (serial : UInt32) : (nextSerial serial).toNat ≤ serial.toNat + 1 := by
  unfold nextSerial
  split
  · exact Nat.le_add_left 1 _
  · rw [UInt32.toNat_add]
    exact Nat.mod_le _ _

/-- At most `n` requests went out, and then `p` was pending. -/
structure Leads (d : Desk) (n : Nat) (p : Pending) (d' : Desk) : Prop where
  traders_eq : d'.traders = d.traders
  maxChecks_eq : d'.maxChecks = d.maxChecks
  pending_eq : d'.ledger.pending = p
  lastSerial_le : d'.lastSerial.toNat ≤ d.lastSerial.toNat + n
  le_lastSerial : d.lastSerial.toNat + n < UInt32.size → d.lastSerial.toNat ≤ d'.lastSerial.toNat

variable {d d' d'' : Desk}

/-- A change of something else. -/
theorem leads_of_eq {p : Pending} (ht : d'.traders = d.traders) (hm : d'.maxChecks = d.maxChecks)
    (hs : d'.lastSerial = d.lastSerial) (hp : d'.ledger.pending = p) : d.Leads 0 p d' where
  traders_eq := ht
  maxChecks_eq := hm
  pending_eq := hp
  lastSerial_le := by simp [hs]
  le_lastSerial _ := by simp [hs]

/-- Requests after requests. -/
theorem Leads.trans {n m : Nat} {p p' : Pending} (h : d.Leads n p d') (h' : d'.Leads m p' d'') :
    d.Leads (n + m) p' d'' where
  traders_eq := h'.traders_eq.trans h.traders_eq
  maxChecks_eq := h'.maxChecks_eq.trans h.maxChecks_eq
  pending_eq := h'.pending_eq
  lastSerial_le := by
    have := h.lastSerial_le
    have := h'.lastSerial_le
    omega
  le_lastSerial hlt := by
    have := h.lastSerial_le
    have := h.le_lastSerial (by omega)
    have := h'.le_lastSerial (by omega)
    omega

/-- A weaker bound. -/
theorem Leads.mono {n m : Nat} {p : Pending} (h : d.Leads n p d') (hn : n ≤ m) : d.Leads m p d' :=
  { h with
    lastSerial_le := Nat.le_trans h.lastSerial_le (Nat.add_le_add_left hn _)
    le_lastSerial := fun hlt ↦ h.le_lastSerial (Nat.lt_of_le_of_lt (Nat.add_le_add_left hn _) hlt) }

/-- A request alone changes nothing that is pending. Its serial is the next. -/
theorem leads_request (d : Desk) (exchange : String) (r : Request) :
    d.Leads 1 d.ledger.pending (d.request exchange r).2 ∧
      ∀ n ∈ (d.request exchange r).1,
        n = nextSerial d.lastSerial ∧ (d.request exchange r).2.lastSerial = n := by
  unfold request
  split
  · exact ⟨⟨rfl, rfl, rfl, Nat.le_succ _, fun _ ↦ Nat.le_refl _⟩, fun n hn ↦ by cases hn⟩
  · refine ⟨⟨rfl, rfl, rfl, toNat_nextSerial_le _, fun h ↦ ?_⟩, fun n hn ↦ ?_⟩
    · show d.lastSerial.toNat ≤ (nextSerial d.lastSerial).toNat
      rw [toNat_nextSerial h]
      exact Nat.le_succ _
    · cases hn
      exact ⟨rfl, rfl⟩

/-- What is pending once a request has gone out under a serial, if it has. -/
def noted (d : Desk) (strategy : String) (kind : MessageKind) (data : String)
    (serial : Option UInt32) : Pending :=
  match serial with
  | some n => (d.ledger.pending.add strategy n kind data).2
  | none => d.ledger.pending

/-- A request that has gone out is noted. -/
theorem Leads.expect {n : Nat} {p : Pending} (h : d.Leads n p d') (strategy : String)
    (serial : UInt32) (kind : MessageKind) (data : String) :
    d.Leads n (p.add strategy serial kind data).2 (d'.expect strategy serial kind data) :=
  { h with
    pending_eq := by
      rw [← h.pending_eq]
      rfl }

/-- An order is noted under its serial, which is the next. -/
theorem leads_placeOrder (d : Desk) (strategy : String) (c : OrderCommand) :
    d.Leads 1 (d.noted strategy .placeOrder c.key.label (d.placeOrder strategy c).1)
        (d.placeOrder strategy c).2 ∧
      ∀ n ∈ (d.placeOrder strategy c).1,
        n = nextSerial d.lastSerial ∧ (d.placeOrder strategy c).2.lastSerial = n := by
  obtain ⟨h, hn⟩ := leads_request d c.key.exchange (.place c)
  unfold placeOrder
  split
  · next d₁ hd =>
    rw [hd] at h
    exact ⟨h, fun n hn ↦ by cases hn⟩
  · next serial d₁ hd =>
    rw [hd] at h hn
    have hnoted := h.expect strategy serial .placeOrder c.key.label
    exact ⟨⟨hnoted.traders_eq, hnoted.maxChecks_eq, hnoted.pending_eq, hnoted.lastSerial_le,
      hnoted.le_lastSerial⟩, hn⟩

/-- A cancellation is noted under its serial, which is the next. -/
theorem leads_cancelOrders (d : Desk) (strategy : String) (c : CancelCommand) :
    d.Leads 1 (d.noted strategy .cancelOrders (String.intercalate "," c.orderIds)
        (d.cancelOrders strategy c).1) (d.cancelOrders strategy c).2 ∧
      ∀ n ∈ (d.cancelOrders strategy c).1,
        n = nextSerial d.lastSerial ∧ (d.cancelOrders strategy c).2.lastSerial = n := by
  obtain ⟨h, hn⟩ := leads_request d c.key.exchange (.cancel c)
  unfold cancelOrders
  split
  · next d₁ hd =>
    rw [hd] at h
    exact ⟨h, fun n hn ↦ by cases hn⟩
  · next serial d₁ hd =>
    rw [hd] at h hn
    exact ⟨h.expect strategy serial .cancelOrders _, hn⟩

/-- A strategy's look sends nothing. -/
theorem leads_reviewPending (d : Desk) (strategy : String) :
    d.Leads 0 (d.ledger.pending.review strategy d.maxChecks.toNat).2 (d.reviewPending strategy).2 :=
  leads_of_eq rfl rfl rfl rfl

/-- Requests one after another. -/
theorem leads_requestAll (d : Desk) (exchange : String) (rs : List Request) :
    d.Leads rs.length d.ledger.pending (d.requestAll exchange rs) := by
  induction rs generalizing d with
  | nil => exact leads_of_eq rfl rfl rfl rfl
  | cons r rest ih =>
    have h : d.Leads 1 d.ledger.pending (d.request exchange r).2 := (leads_request d _ _).1
    have hrest := ih (d.request exchange r).2
    rw [h.pending_eq] at hrest
    have hall := h.trans hrest
    rwa [Nat.add_comm] at hall

/-- An answer makes as many requests as it makes the desk ask, and removes what it confirms. -/
theorem leads_settle (d : Desk) (exchange : String) (serial : UInt32) (a : Answer) :
    d.Leads (a.requests exchange).length
      (if a.confirms then (d.ledger.pending.remove serial).2 else d.ledger.pending)
      (d.settle exchange serial a) := by
  have hledger : d.Leads 0
      (if a.confirms then (d.ledger.pending.remove serial).2 else d.ledger.pending)
      (d.withLedger (a.settle d.ledger exchange serial)) :=
    leads_of_eq rfl rfl rfl (a.pending_settle d.ledger exchange serial)
  have hasked := leads_requestAll (d.withLedger (a.settle d.ledger exchange serial)) exchange
    (a.requests exchange)
  rw [hledger.pending_eq] at hasked
  have hall := hledger.trans hasked
  rwa [Nat.zero_add] at hall

end Desk

/-- An envelope confirms the request of its serial if it comes from a venue that has a trader, and
otherwise leaves alone what is pending. -/
theorem Answers.leads_handle (d : Desk) (e : Envelope) :
    d.Leads (if d.traders.contains e.source then e.followUps else 0)
      (if d.traders.contains e.source && e.confirms then (d.ledger.pending.remove e.reqSerial).2
        else d.ledger.pending) (handle d e).2 := by
  have hrefl : d.Leads 0 d.ledger.pending d := Desk.leads_of_eq rfl rfl rfl rfl
  rw [Envelope.followUps_eq, Envelope.confirms_eq]
  by_cases he : e.isAnswer
  · rw [handle_of_isAnswer d he, Desk.answer?]
    by_cases hx : d.traders.contains e.source
    · simp only [hx, if_true, Bool.true_and]
      cases e.answer? with
      | none => exact hrefl
      | some a => exact Desk.leads_settle d e.source e.reqSerial a
    · simp only [hx]
      exact hrefl
  · have he' : e.isAnswer = false := Bool.eq_false_iff.mpr he
    have hnone : (if d.traders.contains e.source then 0 else 0) = 0 := ite_self 0
    simp only [Envelope.answer?_of_not_isAnswer he', Option.map_none, Option.getD_none,
      Option.any_none, Bool.and_false, hnone]
    cases ht : e.tick? with
    | none =>
      rw [snd_handle_of_not_isAnswer d he' ht]
      exact hrefl
    | some tick =>
      rw [handle_of_tick d ht]
      refine Desk.leads_of_eq rfl rfl rfl ?_
      show (d.ledger.reprice tick _).pending = _
      unfold Ledger.reprice
      split
      · rfl
      · rfl

end TradeDesk
