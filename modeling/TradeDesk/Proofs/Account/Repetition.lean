import TradeDesk.Proofs.Account.WorkingOrders

/-!
# Reports that come twice

A report that comes again right away finds what it says already there: of each order and each
balance the last record counts, whether it was read once or twice.
-/

namespace TradeDesk

namespace Ledger

/-- Two ledgers that hold the same: the same order under every id, the same positions, the same
balance of every currency and the same pending requests. -/
structure Same (k k' : Ledger) : Prop where
  order?_eq : ∀ id, k.order? id = k'.order? id
  positions_eq : k.positions = k'.positions
  money_eq : ∀ currency, k.money.get? currency = k'.money.get? currency
  pending_eq : k.pending = k'.pending

/-- A ledger holds what it holds. -/
theorem same_refl (k : Ledger) : k.Same k := ⟨fun _ ↦ rfl, rfl, fun _ ↦ rfl, rfl⟩

variable {k : Ledger}

/-! ### Orders -/

/-- A report of orders that comes again changes no order. -/
theorem same_applyOrders (h : k.Kept) (exchange : String) (r : OrdersResponse) :
    ((k.applyOrders exchange r).2.applyOrders exchange r).2.Same (k.applyOrders exchange r).2 := by
  cases hok : r.status.isOk with
  | false =>
    rw [applyOrders_of_error k exchange hok, applyOrders_of_error k exchange hok]
    exact same_refl k
  | true =>
    have hkept : (k.applyOrders exchange r).2.Kept := h.apply exchange (.orders r)
    obtain ⟨orders, ho⟩ := applyOrders_eq (k.applyOrders exchange r).2 exchange r
    refine ⟨fun id ↦ ?_, ?_, fun currency ↦ ?_, ?_⟩
    · rw [order?_applyOrders hkept exchange hok, order?_applyOrders h exchange hok]
      cases r.last? id with
      | none => rfl
      | some i => rfl
    · rw [ho]
    · rw [ho]
    · rw [ho]

/-! ### Balances -/

/-- A balance as reported, in the place of another. -/
def reportedMoney (m : Money) (item : MoneyItem) : Money :=
  { m with balance := item.balance, rights := item.rights }

/-- Of reported balances the last of a currency counts. -/
theorem get?_foldl_applyMoneyItem (k : Ledger) (exchange : String) (items : List MoneyItem)
    (currency : String × String) :
    (items.foldl (applyMoneyItem exchange) k).money.get? currency =
      match items.reverse.find? (fun i => (exchange, i.symbol) = currency) with
      | some i => some (reportedMoney (k.moneyOrZero currency.1 currency.2) i)
      | none => k.money.get? currency := by
  induction items generalizing k with
  | nil => rfl
  | cons item rest ih =>
    have hitem : (applyMoneyItem exchange k item).money.get? currency =
        if currency = (exchange, item.symbol) then
          some (reportedMoney (k.moneyOrZero exchange item.symbol) item)
        else k.money.get? currency := Table.get?_insert _ _ _ _
    rw [List.foldl_cons, ih, List.reverse_cons, List.find?_append, hitem]
    by_cases hc : currency = (exchange, item.symbol)
    · subst hc
      cases rest.reverse.find? (fun i => (exchange, i.symbol) = (exchange, item.symbol)) with
      | some i => simp [moneyOrZero, hitem, reportedMoney]
      | none => simp
    · cases rest.reverse.find? (fun i => (exchange, i.symbol) = currency) with
      | some i => simp [moneyOrZero, hitem, hc]
      | none => simp [hc, Ne.symm hc]

/-- A report of balances that comes again changes no balance. -/
theorem same_applyMoney (k : Ledger) (exchange : String) (r : MoneyResponse) :
    ((k.applyMoney exchange r).2.applyMoney exchange r).2.Same (k.applyMoney exchange r).2 := by
  obtain ⟨money, hm⟩ := applyMoney_eq (k.applyMoney exchange r).2 exchange r
  refine ⟨fun id ↦ ?_, ?_, fun currency ↦ ?_, ?_⟩
  · rw [hm]
    rfl
  · rw [hm]
  · by_cases hok : r.status.isOk
    · simp only [applyMoney, if_pos hok]
      rw [get?_foldl_applyMoneyItem]
      have hitems := get?_foldl_applyMoneyItem k exchange r.items currency
      cases hlast : r.items.reverse.find? fun i => (exchange, i.symbol) = currency with
      | some i =>
        rw [hlast] at hitems
        simp [moneyOrZero, hitems, reportedMoney]
      | none => rfl
    · simp only [applyMoney, if_neg hok]
  · rw [hm]

/-! ### Positions -/

/-- A report of a position that comes again changes no position. -/
theorem same_applyPositions (k : Ledger) (exchange : String) (r : PositionResponse) :
    ((k.applyPositions exchange r).2.applyPositions exchange r).2.Same
      (k.applyPositions exchange r).2 := by
  obtain ⟨positions, hp⟩ := applyPositions_eq (k.applyPositions exchange r).2 exchange r
  refine ⟨fun id ↦ ?_, ?_, fun currency ↦ ?_, ?_⟩
  · rw [hp]
    rfl
  · by_cases hok : r.status.isOk
    · cases hd : r.positions.head? with
      | none => simp [applyPositions, hok, hd, Table.modify_modify, Position.flat]
      | some d => simp [applyPositions, hok, hd, positionOrFlat, reported, PositionSide.applyVenue]
    · simp [applyPositions, hok]
  · rw [hp]
  · rw [hp]

/-- A report that comes again changes nothing. -/
theorem same_apply (h : k.Kept) (exchange : String) (r : Report) :
    ((k.apply exchange r).2.apply exchange r).2.Same (k.apply exchange r).2 := by
  cases r with
  | money r => exact same_applyMoney k exchange r
  | orders r => exact same_applyOrders h exchange r
  | positions r => exact same_applyPositions k exchange r

end Ledger

end TradeDesk
