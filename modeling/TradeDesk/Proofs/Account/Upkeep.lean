import TradeDesk.Account.Ledger

/-!
# How a ledger is kept

Everything that happens to a ledger, from reports of venues to single balances that are set by hand,
and what holds of its tables throughout: no two working orders share an id, and every position and
every balance stands under its own key.
-/

namespace TradeDesk

namespace Table

variable {κ α : Type} [DecidableEq κ]

/-- Every value stands under its own key. -/
def Keyed (key : α → κ) (t : Table κ α) : Prop := ∀ e ∈ t.entries, key e.2 = e.1

variable {key : α → κ} {t : Table κ α}

omit [DecidableEq κ] in
/-- The empty table has nothing under a wrong key. -/
theorem keyed_empty : (empty : Table κ α).Keyed key := by
  intro e he
  cases he

/-- What is found under a key has that key. -/
theorem Keyed.key_of_get? (h : t.Keyed key) {k : κ} {a : α} (ha : t.get? k = some a) :
    key a = k := h (k, a) (mem_entries_of_get? ha)

/-- A value that is inserted under its own key keeps the table in order. -/
theorem Keyed.insert (h : t.Keyed key) {k : κ} {a : α} (ha : key a = k) :
    (t.insert k a).Keyed key := by
  intro e he
  cases eq_or_mem_of_mem_insert he with
  | inl heq =>
    rw [heq]
    exact ha
  | inr hmem => exact h e hmem

/-- A change that leaves the keys of values alone keeps the table in order. -/
theorem Keyed.modify (h : t.Keyed key) (k : κ) {f : α → α} (hf : ∀ a, key (f a) = key a) :
    (t.modify k f).Keyed key := by
  unfold Table.modify
  split
  · next a ha => exact h.insert ((hf a).trans (h.key_of_get? ha))
  · exact h

end Table

/-! ### Working orders -/

namespace Ledger

/-- Following an order brings in no id but its own. -/
theorem mem_orderIds_track {orders : List Order} {o : Order} {i : String}
    (h : i ∈ (track orders o).map (·.orderId)) :
    i = o.orderId ∨ i ∈ orders.map (·.orderId) := by
  induction orders with
  | nil =>
    unfold track at h
    split at h
    · exact Or.inl (List.mem_singleton.mp h)
    · cases h
  | cons c rest ih =>
    unfold track at h
    rw [List.map_cons]
    split at h
    · split at h
      · exact (List.mem_cons.mp h).imp_right (List.mem_cons_of_mem _)
      · exact Or.inr (List.mem_cons_of_mem _ h)
    · cases List.mem_cons.mp h with
      | inl he =>
        rw [he]
        exact Or.inr List.mem_cons_self
      | inr he => exact (ih he).imp_right (List.mem_cons_of_mem _)

/-- Following an order leaves the ids distinct. -/
theorem nodup_track {orders : List Order} (h : (orders.map (·.orderId)).Nodup) (o : Order) :
    ((track orders o).map (·.orderId)).Nodup := by
  induction orders with
  | nil =>
    unfold track
    split
    · exact List.nodup_cons.mpr ⟨List.not_mem_nil, List.nodup_nil⟩
    · exact List.nodup_nil
  | cons c rest ih =>
    rw [List.map_cons, List.nodup_cons] at h
    unfold track
    split
    · next hc =>
      split
      · rw [List.map_cons, List.nodup_cons, ← hc]
        exact h
      · exact h.2
    · next hc =>
      rw [List.map_cons, List.nodup_cons]
      refine ⟨fun hm ↦ ?_, ih h.2⟩
      cases mem_orderIds_track hm with
      | inl he => exact hc he
      | inr he => exact h.1 he

/-- Following orders one after another leaves the ids distinct. -/
theorem nodup_foldl_track {orders : List Order} (h : (orders.map (·.orderId)).Nodup)
    (os : List Order) : ((os.foldl track orders).map (·.orderId)).Nodup := by
  induction os generalizing orders with
  | nil => exact h
  | cons o rest ih => exact ih (nodup_track h o)

/-! ### The tables of a ledger -/

/-- The tables of a ledger are in order. -/
structure Kept (k : Ledger) : Prop where
  orders : (k.orders.map (·.orderId)).Nodup
  positions : k.positions.Keyed (·.key)
  money : k.money.Keyed fun m ↦ (m.exchange, m.symbol)

/-- An empty ledger is in order. -/
theorem kept_empty : empty.Kept where
  orders := List.nodup_nil
  positions := Table.keyed_empty
  money := Table.keyed_empty

variable {k : Ledger}

/-- A position or the empty one in its place has the key that it was asked for by. -/
theorem Kept.key_positionOrFlat (h : k.Kept) (key : Instrument) :
    (k.positionOrFlat key).key = key := by
  unfold positionOrFlat
  cases hp : k.positions.get? key with
  | none => rfl
  | some p => exact h.positions.key_of_get? hp

/-- A balance or zero in its place is that of the currency that was asked for. -/
theorem Kept.key_moneyOrZero (h : k.Kept) (exchange symbol : String) :
    ((k.moneyOrZero exchange symbol).exchange, (k.moneyOrZero exchange symbol).symbol) =
      (exchange, symbol) := by
  unfold moneyOrZero
  cases hm : k.money.get? (exchange, symbol) with
  | none => rfl
  | some m => exact h.money.key_of_get? hm

private theorem Kept.setPositionAt (h : k.Kept) {key : Instrument} {p : Position}
    (hp : p.key = key) : ({ k with positions := k.positions.insert key p } : Ledger).Kept :=
  ⟨h.orders, h.positions.insert hp, h.money⟩

private theorem Kept.setMoneyAt (h : k.Kept) {key : String × String} {m : Money}
    (hm : (m.exchange, m.symbol) = key) :
    ({ k with money := k.money.insert key m } : Ledger).Kept :=
  ⟨h.orders, h.positions, h.money.insert hm⟩

/-- A reported balance keeps the ledger in order. -/
theorem Kept.applyMoneyItem (h : k.Kept) (exchange : String) (item : MoneyItem) :
    (applyMoneyItem exchange k item).Kept :=
  h.setMoneyAt (h.key_moneyOrZero exchange item.symbol)

/-- Reported balances keep the ledger in order. -/
theorem Kept.foldl_applyMoneyItem (h : k.Kept) (exchange : String) (items : List MoneyItem) :
    (items.foldl (Ledger.applyMoneyItem exchange) k).Kept := by
  induction items generalizing k with
  | nil => exact h
  | cons item rest ih => exact ih (h.applyMoneyItem exchange item)

/-! ### What a report has nothing to do with -/

private theorem foldl_applyMoneyItem_eq (k : Ledger) (exchange : String) (items : List MoneyItem) :
    ∃ money, items.foldl (applyMoneyItem exchange) k = { k with money := money } := by
  induction items generalizing k with
  | nil => exact ⟨k.money, rfl⟩
  | cons item rest ih =>
    obtain ⟨money, hm⟩ := ih (applyMoneyItem exchange k item)
    exact ⟨money, hm⟩

/-- A report of balances changes nothing but balances. -/
theorem applyMoney_eq (k : Ledger) (exchange : String) (r : MoneyResponse) :
    ∃ money, (k.applyMoney exchange r).2 = { k with money := money } := by
  unfold applyMoney
  split
  · exact foldl_applyMoneyItem_eq k exchange r.items
  · exact ⟨k.money, rfl⟩

/-- A report of orders changes nothing but orders. -/
theorem applyOrders_eq (k : Ledger) (exchange : String) (r : OrdersResponse) :
    ∃ orders, (k.applyOrders exchange r).2 = { k with orders := orders } := by
  unfold applyOrders
  split
  · exact ⟨_, rfl⟩
  · exact ⟨k.orders, rfl⟩

/-- A report of positions changes nothing but positions. -/
theorem applyPositions_eq (k : Ledger) (exchange : String) (r : PositionResponse) :
    ∃ positions, (k.applyPositions exchange r).2 = { k with positions := positions } := by
  unfold applyPositions
  split
  · split
    · exact ⟨_, rfl⟩
    · exact ⟨_, rfl⟩
  · exact ⟨k.positions, rfl⟩

/-- A report that carries no error sets the position that it names: as reported if there is a first
detail; otherwise a known position is emptied. -/
theorem get?_applyPositions (k : Ledger) (exchange : String) (r : PositionResponse)
    (key : Instrument) :
    (k.applyPositions exchange r).2.positions.get? key =
      if r.status.isOk ∧ ⟨exchange, r.symbol, r.contract⟩ = key then
        match r.positions.head? with
        | none => (k.positions.get? key).map fun p => .flat p.key
        | some d => some (reported (k.positionOrFlat key) d)
      else k.positions.get? key := by
  unfold applyPositions
  by_cases hok : r.status.isOk
  · rw [if_pos hok]
    cases r.positions.head? with
    | none =>
      show (k.positions.modify _ _).get? key = _
      rw [Table.get?_modify]
      by_cases hk : key = ⟨exchange, r.symbol, r.contract⟩
      · rw [if_pos hk, if_pos ⟨hok, hk.symm⟩, hk]
      · rw [if_neg hk, if_neg fun h ↦ hk h.2.symm]
    | some d =>
      show (k.positions.insert _ _).get? key = _
      rw [Table.get?_insert]
      by_cases hk : key = ⟨exchange, r.symbol, r.contract⟩
      · rw [if_pos hk, if_pos ⟨hok, hk.symm⟩, hk]
      · rw [if_neg hk, if_neg fun h ↦ hk h.2.symm]
  · rw [if_neg hok, if_neg fun h ↦ hok h.1]

/-! ### Everything that happens to a ledger -/

/-- What a venue reports of its accounts. -/
inductive Report where
  | money (r : MoneyResponse)
  | orders (r : OrdersResponse)
  | positions (r : PositionResponse)

/-- Takes the report of an exchange; false when it carries an error. -/
def apply (k : Ledger) (exchange : String) : Report → Bool × Ledger
  | .money r => k.applyMoney exchange r
  | .orders r => k.applyOrders exchange r
  | .positions r => k.applyPositions exchange r

/-- One thing that happens to a ledger. -/
inductive Event where
  | report (exchange : String) (r : Report)
  | setPosition (p : Position)
  | setMoney (m : Money)
  | createPosition (key : Instrument)
  | createMoney (exchange symbol : String)
  | disablePosition (key : Instrument)
  | reprice (tick : Tick) (trader : Option Trader)
  | setPending (p : Pending)

/-- The ledger after an event. -/
def after (k : Ledger) : Event → Ledger
  | .report exchange r => (k.apply exchange r).2
  | .setPosition p => k.setPosition p
  | .setMoney m => k.setMoney m
  | .createPosition key => k.createPosition key
  | .createMoney exchange symbol => k.createMoney exchange symbol
  | .disablePosition key => k.disablePosition key
  | .reprice tick trader => k.reprice tick trader
  | .setPending p => { k with pending := p }

/-- A report keeps the ledger in order. -/
theorem Kept.apply (h : k.Kept) (exchange : String) (r : Report) :
    (k.apply exchange r).2.Kept := by
  cases r with
  | money r =>
    show (k.applyMoney exchange r).2.Kept
    unfold applyMoney
    split
    · exact h.foldl_applyMoneyItem exchange r.items
    · exact h
  | orders r =>
    show (k.applyOrders exchange r).2.Kept
    unfold applyOrders
    split
    · exact ⟨nodup_foldl_track h.orders _, h.positions, h.money⟩
    · exact h
  | positions r =>
    show (k.applyPositions exchange r).2.Kept
    unfold applyPositions
    split
    · split
      · exact ⟨h.orders, h.positions.modify _ fun _ ↦ rfl, h.money⟩
      · exact h.setPositionAt (h.key_positionOrFlat _)
    · exact h

/-- Repricing leaves the key of a position alone. -/
theorem key_floatProfit (t : Trader) (p : Position) (last : Float) :
    (t.floatProfit p last).key = p.key := by
  unfold Trader.floatProfit
  split
  · rfl
  · split
    · rfl
    · rfl

/-- Every event keeps the ledger in order. -/
theorem Kept.after (h : k.Kept) (e : Event) : (k.after e).Kept := by
  cases e with
  | report exchange r => exact h.apply exchange r
  | setPosition p => exact h.setPositionAt rfl
  | setMoney m => exact h.setMoneyAt rfl
  | createPosition key => exact h.setPositionAt (h.key_positionOrFlat key)
  | createMoney exchange symbol => exact h.setMoneyAt (h.key_moneyOrZero exchange symbol)
  | disablePosition key => exact h.setPositionAt (h.key_positionOrFlat key)
  | reprice tick trader =>
    cases trader with
    | none => exact h
    | some t =>
      exact ⟨h.orders, h.positions.modify _ fun p ↦ key_floatProfit t p tick.last, h.money⟩
  | setPending p => exact ⟨h.orders, h.positions, h.money⟩

/-- A ledger stays in order whatever happens to it. -/
theorem Kept.foldl_after (h : k.Kept) (events : List Event) :
    (events.foldl Ledger.after k).Kept := by
  induction events generalizing k with
  | nil => exact h
  | cons e rest ih => exact ih (h.after e)

end Ledger

end TradeDesk
