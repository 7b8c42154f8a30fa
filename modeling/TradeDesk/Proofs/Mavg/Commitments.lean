import TradeDesk.Proofs.Desk.Requests
import TradeDesk.Proofs.Mavg.Orders

/-!
# What the moving-average strategy leaves pending

The orders of the strategy are pending under the serials that they went out with. Its look at them
takes away those that it has looked at often enough, and what it asks for then is not pending.
-/

namespace TradeDesk

/-! ### Orders and what is pending -/

/-- A request is an order on an instrument that went out in a turn and was looked at so often. -/
structure Turn.Ordered (t : Turn) (strategy : String) (key : Instrument) (checks : Nat)
    (e : PendingRequest) : Prop where
  strategy_eq : e.strategy = strategy
  kind_eq : e.kind = .placeOrder
  data_eq : e.data = key.label
  serial_mem : e.serial ∈ t.orderSerials key
  checks_eq : e.checks = checks

namespace Turn

/-- The orders of a turn are those of its first part and those of its second. -/
theorem orderSerials_append (inbound inbound' inbound'' : Option Envelope) (es es' : List Envelope)
    (key : Instrument) :
    (⟨inbound, es ++ es'⟩ : Turn).orderSerials key =
      (⟨inbound', es⟩ : Turn).orderSerials key ++ (⟨inbound'', es'⟩ : Turn).orderSerials key := by
  rw [orderSerials, List.filter_append, List.map_append]
  rfl

variable {es es' : List Envelope} {strategy : String} {key : Instrument} {checks : Nat}
  {e : PendingRequest}

/-- An order of the first part of a turn is an order of the turn. -/
theorem Ordered.append_right {inbound inbound' : Option Envelope}
    (h : (⟨inbound, es⟩ : Turn).Ordered strategy key checks e) (es' : List Envelope) :
    (⟨inbound', es ++ es'⟩ : Turn).Ordered strategy key checks e :=
  { h with
    serial_mem := by
      rw [orderSerials_append inbound' inbound none]
      exact List.mem_append_left _ h.serial_mem }

/-- An order of the second part of a turn is an order of the turn. -/
theorem Ordered.append_left {inbound inbound' : Option Envelope}
    (h : (⟨inbound, es'⟩ : Turn).Ordered strategy key checks e) (es : List Envelope) :
    (⟨inbound', es ++ es'⟩ : Turn).Ordered strategy key checks e :=
  { h with
    serial_mem := by
      rw [orderSerials_append inbound' none inbound]
      exact List.mem_append_right _ h.serial_mem }

end Turn

namespace Desk

/-- At most `n` orders on an instrument went out, and whatever is pending since is one of them. -/
structure Commits (d : Desk) (strategy : String) (key : Instrument) (n : Nat) (es : List Envelope)
    (d' : Desk) : Prop where
  sent_eq : d'.outbox.sent.toList = d.outbox.sent.toList ++ es
  opened : d'.outbox.closed = false
  maxChecks_eq : d'.maxChecks = d.maxChecks
  size_le : d'.ledger.pending.size ≤ d.ledger.pending.size + n
  mem : ∀ x ∈ d'.ledger.pending.entries.entries, x ∈ d.ledger.pending.entries.entries ∨
    (⟨none, es⟩ : Turn).Ordered strategy key 0 x.2

variable {d d' d'' : Desk} {strategy : String} {key : Instrument}

/-- Orders after orders. -/
theorem Commits.trans {n m : Nat} {es es' : List Envelope} (h : d.Commits strategy key n es d')
    (h' : d'.Commits strategy key m es' d'') :
    d.Commits strategy key (n + m) (es ++ es') d'' where
  sent_eq := by rw [h'.sent_eq, h.sent_eq, List.append_assoc]
  opened := h'.opened
  maxChecks_eq := h'.maxChecks_eq.trans h.maxChecks_eq
  size_le := by
    have := h.size_le
    have := h'.size_le
    omega
  mem x hx := by
    cases h'.mem x hx with
    | inl hx =>
      cases h.mem x hx with
      | inl hx => exact Or.inl hx
      | inr ho => exact Or.inr (ho.append_right es')
    | inr ho => exact Or.inr (ho.append_left es)

/-- An order that goes out is noted under its serial. -/
theorem commits_placeOrder (ho : d.outbox.closed = false) (strategy : String) (c : OrderCommand) :
    ∃ es, d.Commits strategy c.key 1 es (d.placeOrder strategy c).2 := by
  cases ht : d.traders.get? c.key.exchange with
  | none =>
    have hd : (d.placeOrder strategy c).2 = d := by
      unfold placeOrder request
      rw [ht]
    rw [hd]
    exact ⟨[], (List.append_nil _).symm, ho, rfl, Nat.le_succ _, fun x hx ↦ Or.inl hx⟩
  | some t =>
    obtain ⟨hsent, hopened⟩ := outbox_request ho ht (.place c)
    have houtbox := (placeOrder_frame ht strategy).1
    have hleads := (leads_placeOrder d strategy c).1
    have hserial : (d.placeOrder strategy c).1 = some (nextSerial d.lastSerial) := by
      unfold placeOrder request
      rw [ht]
    rw [hserial] at hleads
    have hpending : (d.placeOrder strategy c).2.ledger.pending =
        (d.ledger.pending.add strategy (nextSerial d.lastSerial) .placeOrder c.key.label).2 :=
      hleads.pending_eq
    refine ⟨[t.envelope (nextSerial d.lastSerial) (.place c)], houtbox ▸ hsent, houtbox ▸ hopened,
      hleads.maxChecks_eq, ?_, fun x hx ↦ ?_⟩
    · rw [hpending]
      exact Pending.size_add_le _ _ _ _ _
    · rw [hpending] at hx
      cases Pending.eq_or_mem_of_mem_add hx with
      | inl hx =>
        rw [hx]
        refine Or.inr ⟨rfl, rfl, rfl, ?_, rfl⟩
        have hconcerns := (t.concerns_placeOrder (nextSerial d.lastSerial) (.place c) c.key).mpr
          ⟨c, rfl, rfl⟩
        rw [Turn.orderSerials, List.filter_cons_of_pos hconcerns, List.map_cons,
          t.reqSerial_envelope]
        exact List.mem_cons_self
      | inr hx => exact Or.inl hx

/-- Orders that are placed are noted. -/
theorem Places.commits {n : Nat} (h : d.Places strategy key n d') (ho : d.outbox.closed = false) :
    ∃ es, d.Commits strategy key n es d' := by
  obtain ⟨cs, hn, hk, rfl⟩ := h
  induction cs generalizing d n with
  | nil =>
    exact ⟨[], (List.append_nil _).symm, ho, rfl, Nat.le_add_right _ n, fun x hx ↦ Or.inl hx⟩
  | cons c rest ih =>
    obtain ⟨es, hc⟩ := commits_placeOrder ho strategy c
    rw [hk c List.mem_cons_self] at hc
    rw [List.length_cons] at hn
    obtain ⟨es', hrest⟩ := ih (n := n - 1) hc.opened (by omega)
      fun c' hc' ↦ hk c' (List.mem_cons_of_mem c hc')
    have hall := hc.trans hrest
    rw [Nat.add_sub_cancel' (by omega)] at hall
    exact ⟨es ++ es', hall⟩

end Desk

/-! ### The strategy's look -/

namespace MavgStrategy

/-- The strategy is ready for a tick when nothing of its own is left pending. -/
theorem review_fst (s : MavgStrategy) (d : Desk) :
    (s.review d).1 = (d.reviewPending Mavg.strategyName).1.isEmpty := by
  unfold review
  split
  · next hd =>
    rw [hd]
    rfl
  · next hd =>
    rw [hd]
    rfl

private theorem leads_queryPositions (keys : List Instrument) (d : Desk) :
    ∃ n, d.Leads n d.ledger.pending (queryPositions d keys) := by
  induction keys generalizing d with
  | nil => exact ⟨0, Desk.leads_of_eq rfl rfl rfl rfl⟩
  | cons key rest ih =>
    have hfirst : d.Leads 1 d.ledger.pending (d.queryPosition key).2 :=
      (Desk.leads_request d key.exchange (.position key)).1
    obtain ⟨n, hrest⟩ := ih (d.queryPosition key).2
    rw [hfirst.pending_eq] at hrest
    exact ⟨1 + n, hfirst.trans hrest⟩

/-- Asking for everything again leaves alone what is pending. -/
theorem leads_refresh (s : MavgStrategy) (d : Desk) :
    ∃ n, d.Leads n d.ledger.pending (s.refresh d) := by
  have haccount : d.Leads 1 d.ledger.pending (d.queryAccount s.exchange).2 :=
    (Desk.leads_request d s.exchange .account).1
  unfold refresh
  split
  · next d₁ hd =>
    rw [hd] at haccount
    exact ⟨1, haccount⟩
  · next serial d₁ hd =>
    rw [hd] at haccount
    obtain ⟨n, hrest⟩ := leads_queryPositions s.follows d₁
    rw [haccount.pending_eq] at hrest
    exact ⟨1 + n, haccount.trans hrest⟩

/-- What the strategy's look leaves pending. -/
theorem leads_review (s : MavgStrategy) (d : Desk) :
    ∃ n, d.Leads n (d.ledger.pending.review Mavg.strategyName d.maxChecks.toNat).2
      (s.review d).2 := by
  have hlook := Desk.leads_reviewPending d Mavg.strategyName
  unfold review
  split
  · next d₁ hd =>
    rw [hd] at hlook
    exact ⟨0, hlook⟩
  · next d₁ hd =>
    rw [hd] at hlook
    obtain ⟨n, hrest⟩ := leads_refresh s d₁
    rw [hlook.pending_eq] at hrest
    exact ⟨0 + n, hlook.trans hrest⟩

end MavgStrategy

end TradeDesk
