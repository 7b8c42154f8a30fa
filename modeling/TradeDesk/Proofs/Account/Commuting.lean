import TradeDesk.Proofs.Account.Isolation
import TradeDesk.Proofs.Account.Repetition

/-!
# Reports in either order

What a report makes of one order, one position or one balance depends on that one alone, and on
nothing at all where the report does not name it. Two reports that name nothing in common therefore
lead to the same accounts in whichever order they come, though the orders and tables may be listed
differently.
-/

namespace TradeDesk.Ledger

/-! ### What a report names -/

/-- The currencies that a report of an exchange without an error names. -/
def Report.currencies (exchange : String) : Report → List (String × String)
  | .money r => if r.status.isOk then r.items.map fun i => (exchange, i.symbol) else []
  | .orders _ => []
  | .positions _ => []

/-- The instruments whose position a report of an exchange without an error names. -/
def Report.instruments (exchange : String) : Report → List Instrument
  | .positions r => if r.status.isOk then [⟨exchange, r.symbol, r.contract⟩] else []
  | .money _ => []
  | .orders _ => []

/-- Whether a report carries no error. -/
def Report.isOk : Report → Bool
  | .money r => r.status.isOk
  | .orders r => r.status.isOk
  | .positions r => r.status.isOk

/-! ### What a report makes of what it names -/

/-- What a report of an exchange makes of the order under an id. -/
def Report.order (exchange : String) (r : Report) (id : String) (o : Option Order) : Option Order :=
  match r with
  | .orders r =>
    if r.status.isOk then
      match r.last? id with
      | some i => if i.status.isOpen then some (i.order exchange) else none
      | none => o
    else o
  | .money _ | .positions _ => o

/-- What it makes of the position of an instrument. -/
def Report.position (exchange : String) (r : Report) (key : Instrument) (p : Option Position) :
    Option Position :=
  match r with
  | .positions r =>
    if r.status.isOk ∧ ⟨exchange, r.symbol, r.contract⟩ = key then
      match r.positions.head? with
      | none => p.map fun p => .flat p.key
      | some d => some (reported (p.getD (.flat key)) d)
    else p
  | .money _ | .orders _ => p

/-- What it makes of the balance of a currency. -/
def Report.balance (exchange : String) (r : Report) (currency : String × String)
    (m : Option Money) : Option Money :=
  match r with
  | .money r =>
    if r.status.isOk then
      match r.items.reverse.find? fun i => (exchange, i.symbol) = currency with
      | some i => some (reportedMoney (m.getD (.zero currency.1 currency.2)) i)
      | none => m
    else m
  | .orders _ | .positions _ => m

namespace Report

variable {exchange : String} {r : Report}

/-- An order that is not named stays as it is. -/
theorem order_of_not_mem {id : String} (h : id ∉ r.orderIds) (o : Option Order) :
    r.order exchange id o = o := by
  cases r with
  | money r => rfl
  | positions r => rfl
  | orders r =>
    by_cases hok : r.status.isOk
    · have hnone : r.last? id = none := by
        rw [OrdersResponse.last?, List.find?_eq_none]
        intro i hi hid
        apply h
        rw [orderIds, if_pos hok]
        exact List.mem_map.mpr ⟨i, List.mem_reverse.mp hi, of_decide_eq_true hid⟩
      simp only [order, if_pos hok, hnone]
    · simp only [order, if_neg hok]

/-- A position that is not named stays as it is. -/
theorem position_of_not_mem {key : Instrument} (h : key ∉ r.instruments exchange)
    (p : Option Position) : r.position exchange key p = p := by
  cases r with
  | money r => rfl
  | orders r => rfl
  | positions r =>
    apply if_neg
    rintro ⟨hok, rfl⟩
    rw [instruments, if_pos hok] at h
    exact h List.mem_cons_self

/-- A balance that is not named stays as it is. -/
theorem balance_of_not_mem {currency : String × String} (h : currency ∉ r.currencies exchange)
    (m : Option Money) : r.balance exchange currency m = m := by
  cases r with
  | positions r => rfl
  | orders r => rfl
  | money r =>
    by_cases hok : r.status.isOk
    · have hnone : r.items.reverse.find? (fun i ↦ (exchange, i.symbol) = currency) = none := by
        rw [List.find?_eq_none]
        intro i hi hc
        apply h
        rw [currencies, if_pos hok]
        exact List.mem_map.mpr ⟨i, List.mem_reverse.mp hi, of_decide_eq_true hc⟩
      simp only [balance, if_pos hok, hnone]
    · simp only [balance, if_neg hok]

end Report

/-! ### Looking things up after a report -/

variable {k : Ledger}

/-- A report is answered by whether it carries an error. -/
theorem fst_apply (k : Ledger) (exchange : String) (r : Report) :
    (k.apply exchange r).1 = r.isOk := by
  cases r with
  | money r =>
    show (k.applyMoney exchange r).1 = r.status.isOk
    cases hok : r.status.isOk <;> simp [applyMoney, hok]
  | orders r =>
    show (k.applyOrders exchange r).1 = r.status.isOk
    cases hok : r.status.isOk <;> simp [applyOrders, hok]
  | positions r =>
    show (k.applyPositions exchange r).1 = r.status.isOk
    cases hok : r.status.isOk with
    | false => simp [applyPositions, hok]
    | true => cases hd : r.positions.head? <;> simp [applyPositions, hok, hd]

/-- The order under an id after a report. -/
theorem order?_apply (h : k.Kept) (exchange : String) (r : Report) (id : String) :
    (k.apply exchange r).2.order? id = r.order exchange id (k.order? id) := by
  cases r with
  | money r =>
    obtain ⟨money, hm⟩ := applyMoney_eq k exchange r
    show (k.applyMoney exchange r).2.order? id = k.order? id
    rw [hm]
    rfl
  | positions r =>
    obtain ⟨positions, hp⟩ := applyPositions_eq k exchange r
    show (k.applyPositions exchange r).2.order? id = k.order? id
    rw [hp]
    rfl
  | orders r =>
    show (k.applyOrders exchange r).2.order? id = _
    by_cases hok : r.status.isOk
    · rw [order?_applyOrders h exchange hok]
      cases hl : r.last? id with
      | some i => simp [Report.order, hok, hl]
      | none => simp [Report.order, hok, hl]
    · rw [applyOrders_of_error k exchange (Bool.eq_false_iff.mpr hok)]
      simp only [Report.order, if_neg hok]

/-- The position of an instrument after a report. -/
theorem position_apply (k : Ledger) (exchange : String) (r : Report) (key : Instrument) :
    (k.apply exchange r).2.positions.get? key =
      r.position exchange key (k.positions.get? key) := by
  cases r with
  | money r =>
    obtain ⟨money, hm⟩ := applyMoney_eq k exchange r
    show (k.applyMoney exchange r).2.positions.get? key = k.positions.get? key
    rw [hm]
  | orders r =>
    obtain ⟨orders, ho⟩ := applyOrders_eq k exchange r
    show (k.applyOrders exchange r).2.positions.get? key = k.positions.get? key
    rw [ho]
  | positions r => exact get?_applyPositions k exchange r key

/-- The balance of a currency after a report. -/
theorem money_apply (k : Ledger) (exchange : String) (r : Report) (currency : String × String) :
    (k.apply exchange r).2.money.get? currency =
      r.balance exchange currency (k.money.get? currency) := by
  cases r with
  | positions r =>
    obtain ⟨positions, hp⟩ := applyPositions_eq k exchange r
    show (k.applyPositions exchange r).2.money.get? currency = k.money.get? currency
    rw [hp]
  | orders r =>
    obtain ⟨orders, ho⟩ := applyOrders_eq k exchange r
    show (k.applyOrders exchange r).2.money.get? currency = k.money.get? currency
    rw [ho]
  | money r =>
    show (k.applyMoney exchange r).2.money.get? currency = _
    by_cases hok : r.status.isOk
    · simp only [applyMoney, if_pos hok, Report.balance]
      exact get?_foldl_applyMoneyItem k exchange r.items currency
    · simp only [applyMoney, if_neg hok, Report.balance]

/-- No report confirms a request. -/
theorem pending_apply (k : Ledger) (exchange : String) (r : Report) :
    (k.apply exchange r).2.pending = k.pending := by
  cases r with
  | money r =>
    obtain ⟨money, hm⟩ := applyMoney_eq k exchange r
    show (k.applyMoney exchange r).2.pending = k.pending
    rw [hm]
  | orders r =>
    obtain ⟨orders, ho⟩ := applyOrders_eq k exchange r
    show (k.applyOrders exchange r).2.pending = k.pending
    rw [ho]
  | positions r =>
    obtain ⟨positions, hp⟩ := applyPositions_eq k exchange r
    show (k.applyPositions exchange r).2.pending = k.pending
    rw [hp]

/-! ### Either order -/

/-- Two ledgers in which every look-up finds the same: the order under every id, the position of
every instrument, the balance of every currency and the pending requests. -/
structure Alike (k k' : Ledger) : Prop where
  order?_eq : ∀ id, k.order? id = k'.order? id
  position_eq : ∀ key, k.positions.get? key = k'.positions.get? key
  money_eq : ∀ currency, k.money.get? currency = k'.money.get? currency
  pending_eq : k.pending = k'.pending

/-- Reports of two exchanges, which may be the same, that name no order id, no instrument and no
currency in common. -/
structure Report.Apart (exchange exchange' : String) (r r' : Report) : Prop where
  orderIds : ∀ id ∈ r.orderIds, id ∉ r'.orderIds
  instruments : ∀ key ∈ r.instruments exchange, key ∉ r'.instruments exchange'
  currencies : ∀ currency ∈ r.currencies exchange, currency ∉ r'.currencies exchange'

/-- Two changes of which one leaves a thing alone can be made in either order. -/
private theorem comm_of_apart {α β : Type} {f g : α → α} {names names' : List β} {b : β}
    (h : ∀ b ∈ names, b ∉ names') (hf : b ∉ names → ∀ a, f a = a) (hg : b ∉ names' → ∀ a, g a = a)
    (a : α) : g (f a) = f (g a) := by
  by_cases hb : b ∈ names
  · have hid := hg (h b hb)
    rw [hid, hid]
  · have hid := hf hb
    rw [hid, hid]

/-- In every ledger that events can lead to, two reports that name nothing in common can come in
either order: every look-up finds the same afterwards, and each report is answered the same. -/
theorem alike_of_apart (events : List Event) (exchange exchange' : String) (r r' : Report)
    (h : r.Apart exchange exchange' r') :
    let k := events.foldl after empty
    let before := k.apply exchange r
    let after := before.2.apply exchange' r'
    let before' := k.apply exchange' r'
    let after' := before'.2.apply exchange r
    after.2.Alike after'.2 ∧ before.1 = after'.1 ∧ before'.1 = after.1 := by
  intro k before after before' after'
  have hk : k.Kept := kept_empty.foldl_after events
  refine ⟨⟨fun id ↦ ?_, fun key ↦ ?_, fun currency ↦ ?_, ?_⟩, ?_, ?_⟩
  · rw [order?_apply (hk.apply exchange r), order?_apply hk, order?_apply (hk.apply exchange' r'),
      order?_apply hk]
    exact comm_of_apart h.orderIds Report.order_of_not_mem Report.order_of_not_mem _
  · simp only [after, after', before, before', position_apply]
    exact comm_of_apart h.instruments Report.position_of_not_mem Report.position_of_not_mem _
  · simp only [after, after', before, before', money_apply]
    exact comm_of_apart h.currencies Report.balance_of_not_mem Report.balance_of_not_mem _
  · simp only [after, after', before, before', pending_apply]
  · simp only [before, after', fst_apply]
  · simp only [before', after, fst_apply]

/-- A report of orders by their ids. -/
def statusReport (orders : List (String × OrderStatus)) : Report :=
  .orders ⟨{}, orders.map fun o =>
    ⟨"btc_usd", "quarter", o.1, 10.0, 0.0, 0.0, 0.0, 0.0, o.2, .openLong, 0.0, 0, "", ""⟩⟩

/-- Of three working orders one exchange reports the first complete and one more working, and another
exchange reports the third partly filled and one more working. The orders that are left are listed
differently, but each is found the same. -/
theorem alike_of_finishedOrder :
    let k := [Event.report "okex" (statusReport [("1", .waiting), ("2", .waiting), ("3", .waiting)])]
      |>.foldl after empty
    let r := statusReport [("1", .complete), ("4", .waiting)]
    let r' := statusReport [("3", .partiallyFilled), ("5", .waiting)]
    let one := ((k.apply "okex" r).2.apply "bitfinex" r').2
    let other := ((k.apply "bitfinex" r').2.apply "okex" r).2
    r.Apart "okex" "bitfinex" r' ∧ one.Alike other ∧
      one.orders.map (·.orderId) = ["2", "3", "4", "5"] ∧
      other.orders.map (·.orderId) = ["2", "3", "5", "4"] := by
  intro k r r' one other
  have hapart : r.Apart "okex" "bitfinex" r' := by
    refine ⟨?_, nofun, nofun⟩
    decide
  refine ⟨hapart, ?_, rfl, rfl⟩
  exact (alike_of_apart _ "okex" "bitfinex" r r' hapart).1

end TradeDesk.Ledger
