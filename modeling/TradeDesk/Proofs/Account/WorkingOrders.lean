import TradeDesk.Proofs.Account.Upkeep

/-!
# Working orders

The orders of a ledger are those that a venue last reported as waiting or partly filled. A report may
name an order several times, and open it, finish it and open it again: its last record counts.
-/

namespace TradeDesk

/-- The last record that a report has of an order. -/
def OrdersResponse.last? (r : OrdersResponse) (orderId : String) : Option OrderInfo :=
  r.orders.reverse.find? fun i => i.orderId = orderId

namespace Ledger

/-! ### Following orders -/

/-- A working order is found once it is followed, and a finished one is not; what is found under other
ids stays. -/
theorem find?_track {orders : List Order} (h : (orders.map (·.orderId)).Nodup) (o : Order)
    (id : String) :
    (track orders o).find? (fun c => c.orderId = id) =
      if o.orderId = id then (if o.status.isOpen then some o else none)
      else orders.find? fun c => c.orderId = id := by
  induction orders with
  | nil =>
    by_cases ho : o.status.isOpen <;> by_cases hid : o.orderId = id <;> simp [track, ho, hid]
  | cons c rest ih =>
    rw [List.map_cons, List.nodup_cons] at h
    by_cases hc : c.orderId = o.orderId
    · -- The order overwritten was the only one with its id.
      have hrest : rest.find? (fun c => c.orderId = o.orderId) = none := by
        rw [List.find?_eq_none]
        intro c' hc' he
        rw [decide_eq_true_eq] at he
        rw [hc, ← he] at h
        exact h.1 (List.mem_map_of_mem hc')
      by_cases hid : o.orderId = id
      · subst hid
        by_cases ho : o.status.isOpen <;> simp [track, hc, ho, hrest]
      · by_cases ho : o.status.isOpen <;> simp [track, hc, ho, hid]
    · rw [track, if_neg hc]
      by_cases hcid : c.orderId = id
      · have hid : o.orderId ≠ id := fun he ↦ hc (hcid.trans he.symm)
        simp [hcid, hid]
      · simp [hcid, ih h.2]

/-- Of orders that are followed one after another the last with an id counts. -/
theorem find?_foldl_track {orders : List Order} (h : (orders.map (·.orderId)).Nodup)
    (os : List Order) (id : String) :
    (os.foldl track orders).find? (fun c => c.orderId = id) =
      match os.reverse.find? (fun o => o.orderId = id) with
      | some o => if o.status.isOpen then some o else none
      | none => orders.find? fun c => c.orderId = id := by
  induction os generalizing orders with
  | nil => rfl
  | cons o rest ih =>
    rw [List.foldl_cons, ih (nodup_track h o), List.reverse_cons, List.find?_append]
    cases rest.reverse.find? (fun o => o.orderId = id) with
    | some c => simp
    | none =>
      rw [find?_track h]
      by_cases hid : o.orderId = id <;> simp [hid]

/-- Following an order brings in no other, and that one only while it works. -/
theorem of_mem_track {orders : List Order} {o c : Order} (h : c ∈ track orders o) :
    c = o ∧ o.status.isOpen = true ∨ c ∈ orders := by
  induction orders with
  | nil =>
    unfold track at h
    split at h
    · next ho => exact Or.inl ⟨List.mem_singleton.mp h, ho⟩
    · cases h
  | cons c' rest ih =>
    unfold track at h
    split at h
    · split at h
      · next ho =>
        cases List.mem_cons.mp h with
        | inl he => exact Or.inl ⟨he, ho⟩
        | inr hm => exact Or.inr (List.mem_cons_of_mem _ hm)
      · exact Or.inr (List.mem_cons_of_mem _ h)
    · cases List.mem_cons.mp h with
      | inl he =>
        rw [he]
        exact Or.inr List.mem_cons_self
      | inr hm => exact (ih hm).imp_right (List.mem_cons_of_mem _)

/-! ### Reports of orders -/

variable {k : Ledger}

/-- A report without an error makes of an order what its last record says, and leaves alone the orders
that it does not name. -/
theorem order?_applyOrders (h : k.Kept) (exchange : String) {r : OrdersResponse}
    (hok : r.status.isOk = true) (id : String) :
    (k.applyOrders exchange r).2.order? id =
      match r.last? id with
      | some i => if i.status.isOpen then some (i.order exchange) else none
      | none => k.order? id := by
  have hlast : (r.orders.map (·.order exchange)).reverse.find? (fun o => o.orderId = id) =
      (r.last? id).map (·.order exchange) := by
    rw [← List.map_reverse, List.find?_map]
    rfl
  rw [applyOrders, if_pos hok]
  show ((r.orders.map (·.order exchange)).foldl track k.orders).find? _ = _
  rw [find?_foldl_track h.orders, hlast]
  cases r.last? id with
  | none => rfl
  | some i => rfl

/-- A report with an error changes nothing. -/
theorem applyOrders_of_error (k : Ledger) (exchange : String) {r : OrdersResponse}
    (hok : r.status.isOk = false) : (k.applyOrders exchange r).2 = k := by
  rw [applyOrders, hok]
  rfl

/-- Every order of the ledger is working. -/
def Working (k : Ledger) : Prop := ∀ o ∈ k.orders, o.status.isOpen = true

/-- Orders that are followed leave none but working ones. -/
theorem isOpen_foldl_track {orders : List Order} (h : ∀ c ∈ orders, c.status.isOpen = true)
    (os : List Order) : ∀ c ∈ os.foldl track orders, c.status.isOpen = true := by
  induction os generalizing orders with
  | nil => exact h
  | cons o rest ih =>
    refine ih fun c hc ↦ ?_
    cases of_mem_track hc with
    | inl ho =>
      rw [ho.1]
      exact ho.2
    | inr hm => exact h c hm

/-- Every event leaves none but working orders. -/
theorem Working.after (h : k.Working) (e : Event) : (k.after e).Working := by
  cases e with
  | report exchange r =>
    cases r with
    | orders r =>
      show (k.applyOrders exchange r).2.Working
      unfold applyOrders
      split
      · exact isOpen_foldl_track h _
      · exact h
    | money r =>
      obtain ⟨money, hm⟩ := applyMoney_eq k exchange r
      show (k.applyMoney exchange r).2.Working
      rw [hm]
      exact h
    | positions r =>
      obtain ⟨positions, hp⟩ := applyPositions_eq k exchange r
      show (k.applyPositions exchange r).2.Working
      rw [hp]
      exact h
  | reprice tick trader =>
    cases trader with
    | none => exact h
    | some t => exact h
  | setPosition p | setMoney m | createPosition key | createMoney exchange symbol => exact h
  | disablePosition key | setPending p => exact h

/-- A ledger holds none but working orders whatever happens to it. -/
theorem Working.foldl_after (h : k.Working) (events : List Event) :
    (events.foldl Ledger.after k).Working := by
  induction events generalizing k with
  | nil => exact h
  | cons e rest ih => exact ih (h.after e)

end Ledger

end TradeDesk
