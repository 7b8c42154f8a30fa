import TradeDesk.Proofs.Account.Upkeep

/-!
# Reports and the accounts at other exchanges

A report of one exchange changes no position and no balance at another. Working orders are known by
their ids alone, so an order at another exchange stays exactly unless the report names its id.
-/

namespace TradeDesk.Ledger

/-- The positions at other exchanges, with the keys that they stand under. -/
def foreignPositions (k : Ledger) (exchange : String) : List (Instrument × Position) :=
  k.positions.entries.filter fun e => e.2.key.exchange ≠ exchange

/-- The balances at other exchanges, with the keys that they stand under. -/
def foreignMoney (k : Ledger) (exchange : String) : List ((String × String) × Money) :=
  k.money.entries.filter fun e => e.2.exchange ≠ exchange

/-- The working orders at other exchanges. -/
def foreignOrders (k : Ledger) (exchange : String) : List Order :=
  k.orders.filter fun o => o.key.exchange ≠ exchange

/-- The ids of the orders that a report without an error names. -/
def Report.orderIds : Report → List String
  | .orders r => if r.status.isOk then r.orders.map (·.orderId) else []
  | .money _ => []
  | .positions _ => []

variable {k : Ledger}

/-! ### Positions and balances -/

private theorem foreignPositions_insert (h : k.positions.Keyed (·.key)) {key : Instrument}
    {p : Position} (hp : p.key = key) :
    (k.positions.insert key p).entries.filter (fun e ↦ e.2.key.exchange ≠ key.exchange) =
      k.foreignPositions key.exchange := by
  apply Table.filter_entries_insert
  · rw [hp]
    exact decide_eq_false fun hne ↦ hne rfl
  · intro e he hk
    have he' : e.2.key = key := (h e he).trans hk
    rw [he']
    exact decide_eq_false fun hne ↦ hne rfl

/-- A report of positions changes none at other exchanges. -/
theorem foreignPositions_applyPositions (h : k.Kept) (exchange : String) (r : PositionResponse) :
    (k.applyPositions exchange r).2.foreignPositions exchange = k.foreignPositions exchange := by
  unfold applyPositions
  split
  · split
    · unfold Table.modify foreignPositions
      simp only
      split
      · next p hp =>
        have hk : p.key = ⟨exchange, r.symbol, r.contract⟩ := h.positions.key_of_get? hp
        have hflat : (Position.flat p.key).key = ⟨exchange, r.symbol, r.contract⟩ := hk
        exact foreignPositions_insert h.positions hflat
      · rfl
    · next d _ =>
      have hk : (reported (k.positionOrFlat ⟨exchange, r.symbol, r.contract⟩) d).key =
          ⟨exchange, r.symbol, r.contract⟩ := h.key_positionOrFlat _
      exact foreignPositions_insert h.positions hk
  · rfl

private theorem foreignMoney_insert (h : k.money.Keyed fun m ↦ (m.exchange, m.symbol))
    {exchange symbol : String} {m : Money} (hm : (m.exchange, m.symbol) = (exchange, symbol)) :
    (k.money.insert (exchange, symbol) m).entries.filter (fun e ↦ e.2.exchange ≠ exchange) =
      k.foreignMoney exchange := by
  apply Table.filter_entries_insert
  · exact decide_eq_false fun hne ↦ hne (congrArg Prod.fst hm)
  · intro e he hk
    exact decide_eq_false fun hne ↦ hne (congrArg Prod.fst ((h e he).trans hk))

private theorem foreignMoney_foldl (h : k.Kept) (exchange : String) (items : List MoneyItem) :
    (items.foldl (applyMoneyItem exchange) k).foreignMoney exchange = k.foreignMoney exchange := by
  induction items generalizing k with
  | nil => rfl
  | cons item rest ih =>
    rw [List.foldl_cons, ih (h.applyMoneyItem exchange item)]
    exact foreignMoney_insert h.money (h.key_moneyOrZero exchange item.symbol)

/-- A report of balances changes none at other exchanges. -/
theorem foreignMoney_applyMoney (h : k.Kept) (exchange : String) (r : MoneyResponse) :
    (k.applyMoney exchange r).2.foreignMoney exchange = k.foreignMoney exchange := by
  unfold applyMoney
  split
  · exact foreignMoney_foldl h exchange r.items
  · rfl

/-! ### Working orders -/

private theorem filter_track {orders : List Order} (h : (orders.map (·.orderId)).Nodup) {o : Order}
    {exchange : String} (ho : o.key.exchange = exchange) :
    (track orders o).filter (fun c ↦ c.key.exchange ≠ exchange) =
      orders.filter fun c ↦ c.key.exchange ≠ exchange ∧ c.orderId ≠ o.orderId := by
  induction orders with
  | nil =>
    unfold track
    split
    · simp [ho]
    · rfl
  | cons c rest ih =>
    rw [List.map_cons, List.nodup_cons] at h
    unfold track
    split
    · next hc =>
      -- The ids are distinct, so no order after the one overwritten has its id.
      have hrest : rest.filter (fun c ↦ c.key.exchange ≠ exchange ∧ c.orderId ≠ o.orderId) =
          rest.filter fun c ↦ c.key.exchange ≠ exchange := by
        apply List.filter_congr
        intro c' hc'
        have hne : c'.orderId ≠ o.orderId := by
          intro he
          apply h.1
          rw [hc, ← he]
          exact List.mem_map_of_mem hc'
        simp [hne]
      rw [List.filter_cons_of_neg (by simp [hc]), hrest]
      split
      · rw [List.filter_cons_of_neg (by simp [ho])]
      · rfl
    · next hc =>
      rw [List.filter_cons, List.filter_cons, ih h.2]
      simp [hc]

private theorem filter_foldl_track {orders os : List Order} (h : (orders.map (·.orderId)).Nodup)
    {exchange : String} (ho : ∀ o ∈ os, o.key.exchange = exchange) :
    (os.foldl track orders).filter (fun c ↦ c.key.exchange ≠ exchange) =
      (orders.filter fun c ↦ c.key.exchange ≠ exchange).filter fun c ↦
        c.orderId ∉ os.map (·.orderId) := by
  induction os generalizing orders with
  | nil => simp
  | cons o rest ih =>
    rw [List.foldl_cons, ih (nodup_track h o) fun o' ho' ↦ ho o' (List.mem_cons_of_mem _ ho'),
      filter_track h (ho o List.mem_cons_self), List.filter_filter, List.filter_filter]
    apply List.filter_congr
    intro c _
    simp only [List.map_cons, List.mem_cons, not_or, ← Bool.decide_and]
    apply decide_eq_decide.mpr
    constructor
    · rintro ⟨hr, hx, ho⟩
      exact ⟨⟨ho, hr⟩, hx⟩
    · rintro ⟨⟨ho, hr⟩, hx⟩
      exact ⟨hr, hx, ho⟩

/-- A report of orders takes from the orders at other exchanges those that it names, and no other. -/
theorem foreignOrders_applyOrders (h : k.Kept) (exchange : String) (r : OrdersResponse) :
    (k.applyOrders exchange r).2.foreignOrders exchange =
      (k.foreignOrders exchange).filter fun o ↦ o.orderId ∉ (Report.orders r).orderIds := by
  unfold applyOrders
  split
  · next hok =>
    have ho : ∀ o ∈ r.orders.map (·.order exchange), o.key.exchange = exchange := by
      intro o hm
      obtain ⟨i, -, rfl⟩ := List.mem_map.mp hm
      rfl
    have hids : (Report.orders r).orderIds =
        (r.orders.map (·.order exchange)).map (·.orderId) := by
      rw [List.map_map]
      exact if_pos hok
    rw [hids]
    exact filter_foldl_track h.orders ho
  · next hok =>
    have hids : (Report.orders r).orderIds = [] := if_neg hok
    rw [hids]
    exact (List.filter_eq_self.mpr fun o _ ↦ by simp).symm

/-! ### Isolation -/

/-- In every ledger that events can lead to, a report of one exchange leaves the positions and
balances at all others exactly as they were, and of the orders at others all those whose id it does
not name; an order of another exchange whose id it names is gone. -/
theorem foreign_apply (events : List Event) (exchange : String) (r : Report) :
    let k := events.foldl after empty
    let k' := (k.apply exchange r).2
    k'.foreignPositions exchange = k.foreignPositions exchange ∧
      k'.foreignMoney exchange = k.foreignMoney exchange ∧
      k'.foreignOrders exchange =
        (k.foreignOrders exchange).filter fun o ↦ o.orderId ∉ r.orderIds := by
  intro k k'
  have h : k.Kept := kept_empty.foldl_after events
  cases r with
  | money r =>
    obtain ⟨money, hm⟩ := applyMoney_eq k exchange r
    have hk : k' = { k with money := money } := hm
    refine ⟨?_, foreignMoney_applyMoney h exchange r, ?_⟩
    · rw [hk]
      rfl
    · rw [hk]
      exact (List.filter_eq_self.mpr fun o _ ↦ decide_eq_true List.not_mem_nil).symm
  | orders r =>
    obtain ⟨orders, ho⟩ := applyOrders_eq k exchange r
    have hk : k' = { k with orders := orders } := ho
    refine ⟨?_, ?_, foreignOrders_applyOrders h exchange r⟩
    · rw [hk]
      rfl
    · rw [hk]
      rfl
  | positions r =>
    obtain ⟨positions, hp⟩ := applyPositions_eq k exchange r
    have hk : k' = { k with positions := positions } := hp
    refine ⟨foreignPositions_applyPositions h exchange r, ?_, ?_⟩
    · rw [hk]
      rfl
    · rw [hk]
      exact (List.filter_eq_self.mpr fun o _ ↦ decide_eq_true List.not_mem_nil).symm

/-- A report of one order. -/
def orderReport (status : OrderStatus) : Report :=
  .orders ⟨{}, [⟨"btc_usd", "quarter", "1", 10.0, 0.0, 0.0, 0.0, 0.0, status, .openLong, 0.0, 0,
    "", ""⟩]⟩

/-- A working order is forgotten when another exchange reports that its order of the same id is
complete. -/
theorem foreignOrders_apply_ne :
    let k := [Event.report "okex" (orderReport .waiting)].foldl after empty
    (k.foreignOrders "bitfinex").length = 1 ∧
      ((k.apply "bitfinex" (orderReport .complete)).2.foreignOrders "bitfinex").length = 0 := by
  constructor
  · decide
  · decide

end TradeDesk.Ledger
