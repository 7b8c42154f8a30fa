import TradeDesk.Proofs.Desk.Confirmation

/-!
# How requests are numbered

Strategies make requests, and answers of venues make the desk ask for more. Whoever asks, and
whichever venue is asked, the requests that reach a trader go out one envelope each and are numbered
from one, as long as there are numbers. What is asked of a venue without a trader leaves no trace.
-/

namespace TradeDesk

/-! ### What is asked -/

namespace Act

/-- What an act itself asks, and of which exchange. -/
def request? : Act → Option (String × Request)
  | .place _ c => some (c.key.exchange, .place c)
  | .cancel _ c => some (c.key.exchange, .cancel c)
  | .queryAccount exchange => some (exchange, .account)
  | .queryPosition key => some (key.exchange, .position key)
  | .queryOrder key orderId => some (key.exchange, .order key orderId)
  | .queryOrdersByStatus key status => some (key.exchange, .ordersByStatus key status)
  | .transferMoney exchange symbol direction amount =>
    some (exchange, .transfer symbol direction amount)
  | .review _ | .deliver _ => none

/-- The serial that the request of an act returns. -/
def serial? (d : Desk) : Act → Option UInt32
  | .place strategy c => (d.placeOrder strategy c).1
  | .cancel strategy c => (d.cancelOrders strategy c).1
  | .queryAccount exchange => (d.queryAccount exchange).1
  | .queryPosition key => (d.queryPosition key).1
  | .queryOrder key orderId => (d.queryOrder key orderId).1
  | .queryOrdersByStatus key status => (d.queryOrdersByStatus key status).1
  | .transferMoney exchange symbol direction amount =>
    (d.transferMoney exchange symbol direction amount).1
  | .review _ | .deliver _ => none

/-- The ledger once the request of an act has gone out under a serial. -/
def noted (k : Ledger) (serial : UInt32) : Act → Ledger
  | .place strategy c =>
    { k with
      pending := (k.pending.add strategy serial .placeOrder c.key.label).2 }.disablePosition c.key
  | .cancel strategy c =>
    { k with
      pending :=
        (k.pending.add strategy serial .cancelOrders (String.intercalate "," c.orderIds)).2 }
  | _ => k

/-- All that is asked of venues that have traders, the first first: by an act itself, and in
response to an answer. -/
def served (traders : Table String Trader) : Act → List (String × Request)
  | .deliver e =>
    if traders.contains e.source then
      (e.answer?.toList.flatMap (·.requests e.source)).map (e.source, ·)
    else []
  | a => a.request?.toList.filter fun r ↦ traders.contains r.1

/-- All that acts, newest first, ask of venues that have traders, the first first. -/
def allServed (traders : Table String Trader) : List Act → List (String × Request)
  | [] => []
  | a :: earlier => allServed traders earlier ++ a.served traders

/-- What a request makes of the ledger. An order is noted, and the position of its instrument is
there and not to be relied on; a cancellation is noted; other requests leave no mark. -/
def Notes (k : Ledger) (serial : UInt32) (k' : Ledger) : Act → Prop
  | .place strategy c =>
    k'.pending.entries.entries = k.pending.entries.entries ++
        [(serial, ⟨strategy, serial, .placeOrder, c.key.label, 0⟩)] ∧
      k'.positions.get? c.key = some { k.positionOrFlat c.key with valid := false } ∧
      (∀ key ≠ c.key, k'.positions.get? key = k.positions.get? key) ∧
      k' = { k with pending := k'.pending, positions := k'.positions }
  | .cancel strategy c =>
    k'.pending.entries.entries = k.pending.entries.entries ++
        [(serial, ⟨strategy, serial, .cancelOrders, String.intercalate "," c.orderIds, 0⟩)] ∧
      k' = { k with pending := k'.pending }
  | _ => k' = k

variable {a : Act} {r : String × Request} {k : Ledger} {serial : UInt32}

/-- Under a free serial a request leaves its mark in the ledger and no other. -/
theorem notes_noted (h : k.pending.entries.get? serial = none) (a : Act) :
    a.Notes k serial (a.noted k serial) := by
  cases a with
  | place strategy c =>
    refine ⟨Pending.entries_add h _ _ _, ?_, fun key hne ↦ ?_, rfl⟩
    · show (k.positions.insert c.key (k.positionOrFlat c.key).disable).get? c.key = _
      rw [Table.get?_insert, if_pos rfl]
      rfl
    · show (k.positions.insert c.key (k.positionOrFlat c.key).disable).get? key = _
      rw [Table.get?_insert, if_neg hne]
  | cancel strategy c => exact ⟨Pending.entries_add h _ _ _, rfl⟩
  | queryAccount _ | queryPosition _ | queryOrder _ _ | queryOrdersByStatus _ _ => rfl
  | transferMoney _ _ _ _ | review _ | deliver _ => rfl

/-- Of what is pending after a request only the request itself is new. -/
theorem eq_or_mem_of_mem_noted {x : UInt32 × PendingRequest}
    (h : x ∈ (a.noted k serial).pending.entries.entries) :
    x.1 = serial ∨ x ∈ k.pending.entries.entries := by
  cases a with
  | place strategy c => exact (Pending.eq_or_mem_of_mem_add h).imp_left fun hx ↦ by rw [hx]
  | cancel strategy c => exact (Pending.eq_or_mem_of_mem_add h).imp_left fun hx ↦ by rw [hx]
  | queryAccount _ | queryPosition _ | queryOrder _ _ | queryOrdersByStatus _ _ => exact Or.inr h
  | transferMoney _ _ _ _ | review _ | deliver _ => exact Or.inr h

/-- The request of an act is served if its exchange has a trader. -/
theorem served_of_request? (h : a.request? = some r) (traders : Table String Trader) :
    a.served traders = if traders.contains r.1 then [r] else [] := by
  have hserved : a.served traders = a.request?.toList.filter fun r ↦ traders.contains r.1 := by
    cases a with
    | deliver e => cases h
    | _ => rfl
  rw [hserved, h, Option.toList_some, List.filter_cons]
  rfl

end Act

namespace Desk

variable {d : Desk} {a : Act} {r : String × Request}

/-- A request to a venue without a trader returns nothing and changes nothing. -/
theorem act_of_request?_of_none (h : a.request? = some r) (ht : d.traders.get? r.1 = none) :
    a.serial? d = none ∧ d.act a = d := by
  have hrequest : ∀ {exchange}, exchange = r.1 → ∀ q, d.request exchange q = (none, d) := by
    rintro exchange rfl q
    exact request_of_none ht q
  cases a with
  | review _ | deliver _ => cases h
  | place strategy c | cancel strategy c | queryAccount exchange | queryPosition key
  | queryOrder key orderId | queryOrdersByStatus key status
  | transferMoney exchange symbol direction amount =>
    cases h
    simp only [Act.serial?, act, placeOrder, cancelOrders, queryAccount, queryPosition, queryOrder,
      queryOrdersByStatus, transferMoney, hrequest rfl, and_self]

/-- A request to a venue that has a trader goes out under the next serial, which is returned, and is
noted. -/
theorem act_of_request?_of_some (h : a.request? = some r) {t : Trader}
    (ht : d.traders.get? r.1 = some t) :
    a.serial? d = some (nextSerial d.lastSerial) ∧
      d.act a = (d.post t r.2).withLedger (a.noted d.ledger (nextSerial d.lastSerial)) := by
  cases a with
  | review _ | deliver _ => cases h
  | place strategy c | cancel strategy c | queryAccount exchange | queryPosition key
  | queryOrder key orderId | queryOrdersByStatus key status
  | transferMoney exchange symbol direction amount =>
    cases h
    simp only [Act.serial?, act, placeOrder, cancelOrders, queryAccount, queryPosition, queryOrder,
      queryOrdersByStatus, transferMoney, request, ht, true_and]
    rfl

/-! ### What goes out -/

/-- An envelope is the `n`-th request: the trader of the exchange asked published it under the
serial `n`. -/
structure Posted (traders : Table String Trader) (n : Nat) (r : String × Request) (e : Envelope) :
    Prop where
  reqSerial_eq : e.reqSerial.toNat = n
  source_eq : e.source = r.1
  kind?_eq : e.kind? = some r.2.kind
  published : ∃ t, traders.get? r.1 = some t ∧ e = t.envelope e.reqSerial r.2

/-- A trader publishes a request as its exchange. -/
theorem source_envelope (t : Trader) (serial : UInt32) (r : Request) :
    (t.envelope serial r).source = t.exchange := by
  cases r with
  | account => rfl
  | position _ => rfl
  | place _ => rfl
  | order _ _ => rfl
  | ordersByStatus _ _ => rfl
  | cancel _ => rfl
  | transfer _ _ _ => rfl

/-- As long as somebody receives them, requests go out behind what was published before. -/
theorem post_eq (ho : d.outbox.closed = false) (t : Trader) (r : Request) :
    d.post t r =
      { d with
        lastSerial := nextSerial d.lastSerial
        outbox := { sent := d.outbox.sent.push (t.envelope (nextSerial d.lastSerial) r) } } := by
  rw [post, Outbox.publish, ho]
  simp

/-- The traders of a desk stand under their exchanges. -/
theorem keyed_ofTraders (traders : List Trader) (bars : Bars) (maxChecks : UInt32) :
    (ofTraders traders bars maxChecks).traders.Keyed Trader.exchange := by
  have h : ∀ (t : Table String Trader), t.Keyed Trader.exchange →
      ((traders.map fun t ↦ (t.exchange, t)).foldl (fun t e ↦ t.insert e.1 e.2) t).Keyed
        Trader.exchange := by
    induction traders with
    | nil => exact fun _ ht ↦ ht
    | cons trader rest ih => exact fun t ht ↦ ih _ (ht.insert rfl)
  exact h .empty Table.keyed_empty

/-- What holds of a desk once requests have been served, the first first: each went out under its
number, and nothing is pending under a number to come. -/
structure Numbered (traders : Table String Trader) (rs : List (String × Request)) (d : Desk) :
    Prop where
  traders_eq : d.traders = traders
  opened : d.outbox.closed = false
  lastSerial_eq : d.lastSerial.toNat = rs.length
  size_eq : d.outbox.sent.size = rs.length
  posted : ∀ n r, rs[n]? = some r → ∃ e, d.outbox.sent[n]? = some e ∧ Posted traders (n + 1) r e
  pending_le : ∀ x ∈ d.ledger.pending.entries.entries, x.1.toNat ≤ rs.length

variable {traders : Table String Trader} {rs : List (String × Request)}

/-- The serial of the next request is the next number, and nothing is pending under it. -/
theorem Numbered.nextSerial (h : Numbered traders rs d) (hfew : rs.length + 1 < UInt32.size) :
    (nextSerial d.lastSerial).toNat = rs.length + 1 ∧
      d.ledger.pending.entries.get? (nextSerial d.lastSerial) = none := by
  have hnext : (Desk.nextSerial d.lastSerial).toNat = rs.length + 1 := by
    rw [toNat_nextSerial (by rw [h.lastSerial_eq]; exact hfew), h.lastSerial_eq]
  refine ⟨hnext, Option.eq_none_iff_forall_ne_some.mpr fun e he ↦ ?_⟩
  have hle : (Desk.nextSerial d.lastSerial).toNat ≤ rs.length :=
    h.pending_le _ (Table.mem_entries_of_get? he)
  omega

/-- One more request goes out under the next number. -/
theorem Numbered.posted_next (h : Numbered traders rs d) (hkeyed : traders.Keyed Trader.exchange)
    (hfew : rs.length + 1 < UInt32.size) {t : Trader} (ht : traders.get? r.1 = some t) :
    Posted traders (rs.length + 1) r (t.envelope (Desk.nextSerial d.lastSerial) r.2) where
  reqSerial_eq := by rw [Trader.reqSerial_envelope, (h.nextSerial hfew).1]
  source_eq := (source_envelope t _ r.2).trans (hkeyed.key_of_get? ht)
  kind?_eq := t.kind?_envelope _ r.2
  published := ⟨t, ht, by rw [Trader.reqSerial_envelope]⟩

/-- A request that is served is numbered. -/
theorem Numbered.post (h : Numbered traders rs d) (hkeyed : traders.Keyed Trader.exchange)
    (hfew : rs.length + 1 < UInt32.size) {t : Trader} (ht : traders.get? r.1 = some t) :
    Numbered traders (rs ++ [r]) (d.post t r.2) where
  traders_eq := h.traders_eq
  opened := by rw [post_eq h.opened]
  lastSerial_eq := by
    rw [List.length_append]
    exact (h.nextSerial hfew).1
  size_eq := by
    rw [post_eq h.opened, List.length_append, ← h.size_eq]
    exact Array.size_push _
  posted n q hq := by
    rw [List.getElem?_append] at hq
    rw [post_eq h.opened, Array.getElem?_push, h.size_eq]
    split
    · next hn =>
      rw [if_neg (by omega), hn, Nat.sub_self] at hq
      cases hq
      rw [hn]
      exact ⟨_, rfl, h.posted_next hkeyed hfew ht⟩
    · next hn =>
      split at hq
      · exact h.posted n q hq
      · rw [List.getElem?_eq_none (by simp; omega)] at hq
        cases hq
  pending_le x hx := by
    rw [List.length_append]
    exact Nat.le_succ_of_le (h.pending_le x hx)

/-- The ledger may change as long as nothing is pending under a number to come. -/
theorem Numbered.withLedger (h : Numbered traders rs d) {k : Ledger}
    (hk : ∀ x ∈ k.pending.entries.entries, x.1.toNat ≤ rs.length) :
    Numbered traders rs (d.withLedger k) :=
  { h with pending_le := hk }

/-- Requests to one venue are numbered in their order. -/
theorem Numbered.requestAll (h : Numbered traders rs d) (hkeyed : traders.Keyed Trader.exchange)
    {exchange : String} {t : Trader} (ht : traders.get? exchange = some t) (qs : List Request)
    (hfew : (rs ++ qs.map (exchange, ·)).length < UInt32.size) :
    Numbered traders (rs ++ qs.map (exchange, ·)) (d.requestAll exchange qs) := by
  have htd : d.traders.get? exchange = some t := by rw [h.traders_eq, ht]
  rw [requestAll_of_some htd]
  clear htd
  induction qs generalizing d rs with
  | nil =>
    rw [List.map_nil, List.append_nil]
    exact h
  | cons q rest ih =>
    have hlist : rs ++ (q :: rest).map (exchange, ·) =
        (rs ++ [(exchange, q)]) ++ rest.map (exchange, ·) := by simp
    rw [hlist] at hfew ⊢
    apply ih (h.post hkeyed _ ht) hfew
    simp only [List.length_append, List.length_singleton] at hfew
    omega

/-- What an answer makes a desk ask is numbered. -/
theorem Numbered.settle (h : Numbered traders rs d) (hkeyed : traders.Keyed Trader.exchange)
    {exchange : String} {t : Trader} (ht : traders.get? exchange = some t) (serial : UInt32)
    (answer : Answer)
    (hfew : (rs ++ (answer.requests exchange).map (exchange, ·)).length < UInt32.size) :
    Numbered traders (rs ++ (answer.requests exchange).map (exchange, ·))
      (d.settle exchange serial answer) := by
  refine (h.withLedger fun x hx ↦ ?_).requestAll hkeyed ht _ hfew
  rw [answer.pending_settle] at hx
  split at hx
  · exact h.pending_le x ((List.mem_filter.mp hx).1)
  · exact h.pending_le x hx

/-- Whatever arrives, the requests that it leads to are numbered. -/
theorem Numbered.deliver (h : Numbered traders rs d) (hkeyed : traders.Keyed Trader.exchange)
    (e : Envelope) (hfew : (rs ++ (Act.deliver e).served traders).length < UInt32.size) :
    Numbered traders (rs ++ (Act.deliver e).served traders) (d.act (.deliver e)) := by
  rw [Act.served] at hfew ⊢
  by_cases he : e.isAnswer
  · rw [act_deliver_of_isAnswer d he, answer?, h.traders_eq]
    cases hx : traders.contains e.source with
    | false => simpa using h
    | true =>
      rw [hx] at hfew
      cases hanswer : e.answer? with
      | none => simpa using h
      | some answer =>
        rw [hanswer] at hfew
        obtain ⟨t, ht⟩ := Option.isSome_iff_exists.mp hx
        simp only [if_true, Option.toList_some, List.flatMap_singleton] at hfew ⊢
        exact h.settle hkeyed ht e.reqSerial answer hfew
  · have he' : e.isAnswer = false := Bool.eq_false_iff.mpr he
    have hnone : rs ++ (if traders.contains e.source then
        (e.answer?.toList.flatMap (·.requests e.source)).map (e.source, ·) else []) = rs := by
      rw [Envelope.answer?_of_not_isAnswer he']
      simp
    rw [hnone]
    cases ht : e.tick? with
    | none =>
      obtain ⟨bars, quotes, hfeed⟩ := Feed.handle_eq {} d e
      rw [act_deliver_of_not_isAnswer d he' ht, hfeed]
      exact { h with }
    | some tick =>
      rw [act_deliver_of_tick d ht]
      refine { h with pending_le := fun x hx ↦ h.pending_le x ?_ }
      change x ∈ (d.ledger.reprice tick _).pending.entries.entries at hx
      unfold Ledger.reprice at hx
      split at hx
      · exact hx
      · exact hx

/-- The request of an act is numbered if it is served. -/
theorem Numbered.request (h : Numbered traders rs d) (hkeyed : traders.Keyed Trader.exchange)
    (ha : a.request? = some r) (hfew : (rs ++ a.served traders).length < UInt32.size) :
    Numbered traders (rs ++ a.served traders) (d.act a) := by
  obtain rfl := h.traders_eq
  rw [Act.served_of_request? ha, Table.contains] at hfew ⊢
  cases ht : d.traders.get? r.1 with
  | none =>
    rw [(act_of_request?_of_none ha ht).2]
    simpa using h
  | some t =>
    rw [ht, Option.isSome_some, if_pos rfl, List.length_append] at hfew
    rw [Option.isSome_some, if_pos rfl, (act_of_request?_of_some ha ht).2]
    refine (h.post hkeyed hfew ht).withLedger fun x hx ↦ ?_
    rw [List.length_append, List.length_singleton]
    cases Act.eq_or_mem_of_mem_noted hx with
    | inl heq =>
      rw [heq]
      exact Nat.le_of_eq (h.nextSerial hfew).1
    | inr hmem => exact Nat.le_succ_of_le (h.pending_le x hmem)

/-- Every act keeps the numbers in order. -/
theorem Numbered.act (h : Numbered traders rs d) (hkeyed : traders.Keyed Trader.exchange) (a : Act)
    (hfew : (rs ++ a.served traders).length < UInt32.size) :
    Numbered traders (rs ++ a.served traders) (d.act a) := by
  cases a with
  | deliver e => exact h.deliver hkeyed e hfew
  | review strategy =>
    rw [show (Act.review strategy).served traders = [] from rfl, List.append_nil]
    refine h.withLedger fun x hx ↦ ?_
    obtain ⟨x₀, hmem, hx₀⟩ := List.mem_filterMap.mp hx
    obtain ⟨e, -, rfl⟩ := Option.map_eq_some_iff.mp hx₀
    exact h.pending_le x₀ hmem
  | _ => exact h.request hkeyed rfl hfew

/-- A run of acts keeps the numbers in order. -/
theorem numbered_run (traders : List Trader) (bars : Bars) (maxChecks : UInt32) (acts : List Act)
    (hfew : (Act.allServed (ofTraders traders bars maxChecks).traders acts).length < UInt32.size) :
    let d := ofTraders traders bars maxChecks
    Numbered d.traders (Act.allServed d.traders acts) (d.run acts).2 := by
  intro d
  induction acts with
  | nil =>
    refine ⟨rfl, rfl, rfl, rfl, fun n r hr ↦ ?_, fun x hx ↦ ?_⟩
    · cases hr
    · cases hx
  | cons a earlier ih =>
    rw [Act.allServed] at hfew
    have hearlier : (Act.allServed d.traders earlier).length < UInt32.size :=
      Nat.lt_of_le_of_lt (List.sublist_append_left _ _).length_le hfew
    exact (ih hearlier).act (keyed_ofTraders traders bars maxChecks) a hfew

/-- In any run of a desk whose traders serve fewer requests than there are serials, the `n`-th
envelope that goes out is the `n`-th request that a trader serves, and carries the serial `n`. A
further request to a venue without a trader returns no serial and changes nothing. One to a venue
that has a trader publishes one envelope, returns its serial and changes nothing else but the
ledger, where an order or a cancellation is noted; an order also leaves the position of its
instrument there and not to be relied on. -/
theorem requests_numbered (traders : List Trader) (bars : Bars) (maxChecks : UInt32)
    (acts : List Act)
    (hfew : (Act.allServed (ofTraders traders bars maxChecks).traders acts).length < UInt32.size) :
    let d₀ := ofTraders traders bars maxChecks
    let served := Act.allServed d₀.traders acts
    let d := (d₀.run acts).2
    d.outbox.sent.size = served.length ∧
      (∀ n r, served[n]? = some r →
        ∃ e, d.outbox.sent[n]? = some e ∧ Posted d₀.traders (n + 1) r e) ∧
      ∀ a r, a.request? = some r →
        (d₀.traders.contains r.1 = false → a.serial? d = none ∧ d.act a = d) ∧
        (d₀.traders.contains r.1 = true → served.length + 1 < UInt32.size →
          ∃ e, Posted d₀.traders (served.length + 1) r e ∧ a.serial? d = some e.reqSerial ∧
            d.act a =
              { d with
                lastSerial := e.reqSerial
                outbox := { sent := d.outbox.sent.push e }
                ledger := (d.act a).ledger } ∧
            a.Notes d.ledger e.reqSerial (d.act a).ledger) := by
  intro d₀ served d
  have h : Numbered d₀.traders served d := numbered_run traders bars maxChecks acts hfew
  refine ⟨h.size_eq, h.posted, fun a r ha ↦ ⟨fun hx ↦ ?_, fun hx hnext ↦ ?_⟩⟩
  · rw [← h.traders_eq] at hx
    exact act_of_request?_of_none ha
      (Option.isNone_iff_eq_none.mp (Option.isSome_eq_false_iff.mp hx))
  · obtain ⟨t, ht⟩ := Option.isSome_iff_exists.mp hx
    have hposted := h.posted_next (keyed_ofTraders traders bars maxChecks) hnext ht
    have hfree := (h.nextSerial hnext).2
    have hserial := t.reqSerial_envelope (Desk.nextSerial d.lastSerial) r.2
    rw [← h.traders_eq] at ht
    obtain ⟨hreturned, hact⟩ := act_of_request?_of_some ha ht
    refine ⟨_, hposted, ?_, ?_, ?_⟩
    · rw [hreturned, hserial]
    · rw [hact, hserial, post_eq h.opened]
      rfl
    · rw [hact, hserial]
      exact Act.notes_noted hfree a

/-- An order where nobody trades. -/
def strayOrder : Act :=
  .place "mavg"
    ⟨⟨"nowhere", quarterly.symbol, quarterly.contract⟩, .openLong, .market, 0.0, 1, 0.0, 10⟩

/-- An order, another where nobody trades, a query of a second venue and the answer to the first
order; newest first. -/
def twoVenues : List Act :=
  [.deliver (.encode .placeAnswer 1 quarterly.exchange
    (⟨{}, quarterly.symbol, quarterly.contract, "7"⟩ : PlaceResponse)),
   .queryAccount "huobi", strayOrder, oneContract]

/-- The answer makes the desk ask for the order last, under the fifth serial. Another stray order
changes nothing, and another order goes out under the sixth serial. -/
theorem numbered_of_twoVenues :
    let d₀ := ofTraders [⟨quarterly.exchange, .empty⟩, ⟨"huobi", .empty⟩] (.empty [] 30) 3
    let d := (d₀.run twoVenues).2
    (Act.allServed d₀.traders twoVenues).length < UInt32.size ∧
      (∃ e, d.outbox.sent[4]? = some e ∧ e.reqSerial.toNat = 5 ∧ e.source = quarterly.exchange ∧
        e.kind? = some .queryOrders) ∧
      d.act strayOrder = d ∧
      ∃ e, e.reqSerial.toNat = 6 ∧ oneContract.serial? d = some e.reqSerial ∧
        (d.act oneContract).outbox.sent = d.outbox.sent.push e ∧
        oneContract.Notes d.ledger e.reqSerial (d.act oneContract).ledger := by
  intro d₀ d
  have hlength : (Act.allServed d₀.traders twoVenues).length = 5 := by decide +kernel
  have hfew : (Act.allServed d₀.traders twoVenues).length < UInt32.size := by
    rw [hlength]
    decide
  have hfifth : (Act.allServed d₀.traders twoVenues)[4]?.map (fun r ↦ (r.1, r.2.kind)) =
      some (quarterly.exchange, .queryOrders) := by
    decide +kernel
  obtain ⟨r, hr, hr'⟩ := Option.map_eq_some_iff.mp hfifth
  obtain ⟨hexchange, hkind⟩ := Prod.mk.inj hr'
  obtain ⟨-, hposted, hcalls⟩ := requests_numbered [⟨quarterly.exchange, .empty⟩, ⟨"huobi", .empty⟩]
    (.empty [] 30) 3 twoVenues hfew
  obtain ⟨e, hposted', hserial, hact, hnotes⟩ := (hcalls oneContract _ rfl).2 (by decide +kernel)
    (by rw [hlength]; decide)
  obtain ⟨e₅, he₅, hposted₅⟩ := hposted 4 r hr
  refine ⟨hfew, ⟨e₅, he₅, hposted₅.reqSerial_eq, ?_, ?_⟩,
    ((hcalls strayOrder _ rfl).1 (by decide +kernel)).2, e, ?_, hserial, ?_, hnotes⟩
  · rw [hposted₅.source_eq, hexchange]
  · rw [hposted₅.kind?_eq, hkind]
  · rw [hposted'.reqSerial_eq, hlength]
  · rw [hact]

end Desk

end TradeDesk
