import TradeDesk.Proofs.Desk.Freshness
import TradeDesk.Proofs.Desk.Requests

/-!
# Requests that wait for their confirmation

Orders and cancellations are pending until they are confirmed, or until their strategy has looked at
them often enough. As long as no serial is used again, what is pending can be told from what
happened to the desk: which requests went out, and which confirmations and looks came after each.
-/

namespace TradeDesk

/-! ### Acts -/

namespace Act

/-- How many requests an act makes of the desk, those in response to an answer included. -/
def calls (traders : Table String Trader) : Act → Nat
  | .review _ => 0
  | .deliver e => if traders.contains e.source then e.followUps else 0
  | _ => 1

/-- How many requests acts make of the desk. -/
def allCalls (traders : Table String Trader) : List Act → Nat
  | [] => 0
  | a :: earlier => a.calls traders + allCalls traders earlier

/-- The order or cancellation that went out, with the serial that the desk returned. -/
def sent? (d : Desk) : Act → Option PendingRequest
  | .place strategy c =>
    (d.placeOrder strategy c).1.map fun n => ⟨strategy, n, .placeOrder, c.key.label, 0⟩
  | .cancel strategy c =>
    (d.cancelOrders strategy c).1.map fun n =>
      ⟨strategy, n, .cancelOrders, String.intercalate "," c.orderIds, 0⟩
  | _ => none

/-- A venue that has a trader confirmed a request. -/
def confirms (traders : Table String Trader) (serial : UInt32) : Act → Bool
  | .deliver e => traders.contains e.source && e.confirms && e.reqSerial = serial
  | _ => false

/-- A strategy looked at its unconfirmed requests. -/
def reviews (strategy : String) : Act → Bool
  | .review s => s = strategy
  | _ => false

/-- What becomes of a pending request. -/
def keeps (d : Desk) (e : PendingRequest) : Act → Option PendingRequest
  | .review strategy => Pending.look strategy d.maxChecks.toNat e
  | .deliver answer => if (deliver answer).confirms d.traders e.serial then none else some e
  | _ => some e

/-- What is pending after an act. -/
def pending (d : Desk) : Act → Pending
  | .place strategy c =>
    d.noted strategy .placeOrder c.key.label (d.placeOrder strategy c).1
  | .cancel strategy c =>
    d.noted strategy .cancelOrders (String.intercalate "," c.orderIds) (d.cancelOrders strategy c).1
  | .review strategy => (d.ledger.pending.review strategy d.maxChecks.toNat).2
  | .deliver e =>
    if d.traders.contains e.source && e.confirms then (d.ledger.pending.remove e.reqSerial).2
    else d.ledger.pending
  | _ => d.ledger.pending

end Act

namespace Desk

variable {d : Desk}

/-- What an act makes of the requests that are pending. -/
theorem leads_act (d : Desk) (a : Act) : d.Leads (a.calls d.traders) (a.pending d) (d.act a) := by
  cases a with
  | place strategy c => exact (leads_placeOrder d strategy c).1
  | cancel strategy c => exact (leads_cancelOrders d strategy c).1
  | review strategy => exact leads_reviewPending d strategy
  | queryAccount exchange => exact (leads_request d _ _).1
  | queryPosition key => exact (leads_request d _ _).1
  | queryOrder key orderId => exact (leads_request d _ _).1
  | queryOrdersByStatus key status => exact (leads_request d _ _).1
  | transferMoney exchange symbol direction amount => exact (leads_request d _ _).1
  | deliver e =>
    have h := Answers.leads_handle d e
    cases hd : Answers.handle d e with
    | mk claimed d₁ =>
      rw [hd] at h
      cases claimed with
      | true =>
        rw [act_of_claimed hd]
        exact h
      | false =>
        obtain ⟨bars, quotes, hfeed⟩ := Feed.handle_eq {} d₁ e
        rw [act_of_passed hd {}, hfeed]
        exact ⟨h.traders_eq, h.maxChecks_eq, h.pending_eq, h.lastSerial_le, h.le_lastSerial⟩

private theorem get?_noted {kind : MessageKind} {data : String} {serial : Option UInt32}
    (hfree : ∀ m ∈ serial, d.ledger.pending.entries.get? m = none) (strategy : String) (n : UInt32)
    (e : PendingRequest) :
    (d.noted strategy kind data serial).entries.get? n = some e ↔
      (serial.map (fun m => (⟨strategy, m, kind, data, 0⟩ : PendingRequest)) = some e ∧
        e.serial = n) ∨ d.ledger.pending.entries.get? n = some e := by
  cases serial with
  | none => simp [noted]
  | some m =>
    have hm := hfree m rfl
    show (d.ledger.pending.add strategy m kind data).2.entries.get? n = some e ↔ _
    rw [Pending.get?_add hm]
    split
    · next hn =>
      rw [hn, hm, Option.map_some]
      constructor
      · intro h
        cases h
        exact Or.inl ⟨rfl, rfl⟩
      · rintro (⟨h, -⟩ | h)
        · exact h
        · cases h
    · next hn =>
      constructor
      · exact Or.inr
      · rintro (⟨h, he⟩ | h)
        · cases h
          exact absurd he.symm hn
        · exact h

end Desk

namespace Act

variable {d : Desk}

/-- An act takes no serial twice. -/
theorem nodup_pending (h : d.ledger.pending.entries.keys.Nodup) (a : Act) :
    (a.pending d).entries.keys.Nodup := by
  have hnoted : ∀ strategy kind data serial,
      (d.noted strategy kind data serial).entries.keys.Nodup := by
    intro strategy kind data serial
    cases serial with
    | none => exact h
    | some n => exact Pending.nodup_add h strategy n kind data
  cases a with
  | place strategy c => exact hnoted _ _ _ _
  | cancel strategy c => exact hnoted _ _ _ _
  | review strategy => exact Pending.nodup_review h strategy _
  | deliver e =>
    rw [pending]
    split
    · exact Pending.nodup_remove h e.reqSerial
    · exact h
  | queryAccount _ | queryPosition _ | queryOrder _ _ | queryOrdersByStatus _ _ => exact h
  | transferMoney _ _ _ _ => exact h

/-- A request is pending after an act if it went out or was kept. -/
theorem get?_pending (h : d.ledger.pending.entries.keys.Nodup)
    (hkey : ∀ n e, d.ledger.pending.entries.get? n = some e → e.serial = n)
    {a : Act} (hfree : ∀ e ∈ a.sent? d, d.ledger.pending.entries.get? e.serial = none)
    (n : UInt32) (e : PendingRequest) :
    (a.pending d).entries.get? n = some e ↔ (a.sent? d = some e ∧ e.serial = n) ∨
      ∃ e₀, d.ledger.pending.entries.get? n = some e₀ ∧ a.keeps d e₀ = some e := by
  cases a with
  | place strategy c =>
    rw [pending, Desk.get?_noted fun m hm ↦ hfree _ (Option.mem_map_of_mem _ hm)]
    simp [sent?, keeps]
  | cancel strategy c =>
    rw [pending, Desk.get?_noted fun m hm ↦ hfree _ (Option.mem_map_of_mem _ hm)]
    simp [sent?, keeps]
  | review strategy =>
    rw [pending, Pending.get?_review h, Option.bind_eq_some_iff]
    simp [sent?, keeps]
  | deliver answer =>
    rw [pending]
    by_cases hc : d.traders.contains answer.source && answer.confirms
    · rw [if_pos hc, Pending.get?_remove]
      simp only [sent?, keeps, confirms, hc, Bool.true_and, decide_eq_true_eq]
      constructor
      · intro hn
        split at hn
        · cases hn
        · next hne =>
          refine Or.inr ⟨e, hn, if_neg fun he ↦ hne ?_⟩
          rw [← hkey n e hn, he]
      · rintro (⟨hs, -⟩ | ⟨e₀, he₀, hk⟩)
        · cases hs
        · split at hk
          · cases hk
          · next hne =>
            cases hk
            rwa [if_neg fun hn ↦ hne (by rw [hkey n e he₀, hn])]
    · rw [if_neg hc]
      simp [sent?, keeps, confirms, Bool.eq_false_iff.mpr hc]
  | queryAccount _ | queryPosition _ | queryOrder _ _ | queryOrdersByStatus _ _ =>
    simp [pending, sent?, keeps]
  | transferMoney _ _ _ _ => simp [pending, sent?, keeps]

/-- A request goes out under the next serial, and has not been looked at. -/
theorem of_sent? {a : Act} {e : PendingRequest} (h : a.sent? d = some e) :
    e.checks = 0 ∧ e.serial = Desk.nextSerial d.lastSerial ∧ (d.act a).lastSerial = e.serial ∧
      a.calls d.traders = 1 := by
  cases a with
  | place strategy c =>
    obtain ⟨n, hn, rfl⟩ := Option.map_eq_some_iff.mp h
    obtain ⟨hs, hl⟩ := (Desk.leads_placeOrder d strategy c).2 n hn
    exact ⟨rfl, hs, hl, rfl⟩
  | cancel strategy c =>
    obtain ⟨n, hn, rfl⟩ := Option.map_eq_some_iff.mp h
    obtain ⟨hs, hl⟩ := (Desk.leads_cancelOrders d strategy c).2 n hn
    exact ⟨rfl, hs, hl, rfl⟩
  | _ => cases h

/-- A request keeps its serial. -/
theorem serial_of_keeps {a : Act} {e e' : PendingRequest} (h : a.keeps d e = some e') :
    e'.serial = e.serial := by
  cases a with
  | review strategy =>
    rw [keeps, Pending.look] at h
    split at h
    · split at h
      · cases h
      · cases h
        rfl
    · cases h
      rfl
  | deliver answer =>
    rw [keeps] at h
    split at h
    · cases h
    · cases h
      rfl
  | _ =>
    cases h
    rfl

/-- A request that has not been looked at often enough is kept unless it is confirmed, and looked at
once more if its strategy looks. -/
theorem keeps_eq_some {a : Act} {e e' : PendingRequest} (h : e.checks < d.maxChecks.toNat) :
    a.keeps d e = some e' ↔ a.confirms d.traders e.serial = false ∧
      e' = { e with checks := [a].countP (·.reviews e.strategy) + e.checks } ∧
      e'.checks < d.maxChecks.toNat := by
  have hkept : some e = some e' ↔ e' = e ∧ e'.checks < d.maxChecks.toNat := by
    constructor
    · intro he
      cases he
      exact ⟨rfl, h⟩
    · rintro ⟨rfl, -⟩
      rfl
  cases a with
  | review strategy =>
    simp only [keeps, confirms, List.countP_singleton, reviews, decide_eq_true_eq, true_and]
    by_cases hs : strategy = e.strategy
    · rw [hs, Pending.look_own, if_pos rfl, Nat.add_comm]
      split
      · next hlt =>
        constructor
        · intro he
          cases he
          exact ⟨rfl, hlt⟩
        · rintro ⟨rfl, -⟩
          rfl
      · next hlt =>
        constructor
        · intro he
          cases he
        · rintro ⟨rfl, hlt'⟩
          exact absurd hlt' hlt
    · rw [Pending.look_of_ne (Ne.symm hs), if_neg hs, Nat.zero_add]
      exact hkept
  | deliver answer =>
    simp only [keeps, List.countP_singleton, reviews, Bool.false_eq_true, if_false, Nat.zero_add]
    by_cases hc : (deliver answer).confirms d.traders e.serial
    · simp [hc]
    · simpa [hc] using hkept
  | place strategy c | cancel strategy c | queryOrder key id | queryOrdersByStatus key status =>
    simpa [keeps, confirms, reviews] using hkept
  | queryAccount exchange | queryPosition key => simpa [keeps, confirms, reviews] using hkept
  | transferMoney _ _ _ _ => simpa [keeps, confirms, reviews] using hkept

end Act

/-! ### What is awaited -/

namespace Desk

/-- A request waits for its confirmation after acts, newest first: it went out, no venue has
confirmed it since, and its strategy has looked as often as the entry tells, and not often
enough. -/
def Awaits (d : Desk) (acts : List Act) (e : PendingRequest) : Prop :=
  ∃ newer a older, acts = newer ++ a :: older ∧
    a.sent? (d.run older).2 = some { e with checks := 0 } ∧
    (∀ b ∈ newer, b.confirms d.traders e.serial = false) ∧
    e.checks = newer.countP (·.reviews e.strategy) ∧ e.checks < d.maxChecks.toNat

variable {d : Desk} {acts : List Act}

/-- Before anything happened nothing is awaited. -/
theorem not_awaits_nil (e : PendingRequest) : ¬ d.Awaits [] e := by
  rintro ⟨newer, a, older, h, -⟩
  cases newer with
  | nil => cases h
  | cons b newer => cases h

/-- A request is awaited after one more act if it went out then, or was awaited and is kept. -/
theorem awaits_cons (ht : (d.run acts).2.traders = d.traders)
    (hm : (d.run acts).2.maxChecks = d.maxChecks) (hmax : 0 < d.maxChecks.toNat) (a : Act)
    (e : PendingRequest) :
    d.Awaits (a :: acts) e ↔ a.sent? (d.run acts).2 = some e ∨
      ∃ e₀, d.Awaits acts e₀ ∧ a.keeps (d.run acts).2 e₀ = some e := by
  have hkeeps : ∀ {e₀ : PendingRequest}, e₀.checks < d.maxChecks.toNat →
      (a.keeps (d.run acts).2 e₀ = some e ↔ a.confirms d.traders e₀.serial = false ∧
        e = { e₀ with checks := [a].countP (·.reviews e₀.strategy) + e₀.checks } ∧
        e.checks < d.maxChecks.toNat) := by
    intro e₀ hlt
    rw [← hm] at hlt ⊢
    rw [← ht]
    exact Act.keeps_eq_some hlt
  constructor
  · rintro ⟨newer, b, older, hacts, hsent, hconfirms, hchecks, hlt⟩
    cases newer with
    | nil =>
      -- the act itself sent the request
      cases hacts
      left
      rw [hsent]
      rw [List.countP_nil] at hchecks
      rw [← hchecks]
    | cons b' newer =>
      -- before the act the request was awaited with one look less if the act is a look
      obtain ⟨rfl, rfl⟩ := List.cons.inj hacts
      have hsum : e.checks =
          [a].countP (·.reviews e.strategy) + newer.countP (·.reviews e.strategy) := by
        rw [hchecks, ← List.countP_append]
        rfl
      have hlt₀ : newer.countP (·.reviews e.strategy) < d.maxChecks.toNat := by omega
      refine Or.inr ⟨{ e with checks := newer.countP (·.reviews e.strategy) },
        ⟨newer, b, older, rfl, hsent, fun b' hb ↦ hconfirms b' (List.mem_cons_of_mem a hb), rfl,
          hlt₀⟩, (hkeeps hlt₀).mpr ⟨hconfirms a List.mem_cons_self, ?_, hlt⟩⟩
      show e = { e with checks := _ }
      rw [← hsum]
  · rintro (hsent | ⟨e₀, ⟨newer, b, older, rfl, hsent, hconfirms, hchecks, hlt⟩, hkept⟩)
    · have hchecks := (Act.of_sent? hsent).1
      refine ⟨[], a, acts, rfl, ?_, fun b hb ↦ (by cases hb), hchecks, by rwa [hchecks]⟩
      rw [hsent, ← hchecks]
    · obtain ⟨hconfirm, rfl, hlt'⟩ := (hkeeps hlt).mp hkept
      refine ⟨a :: newer, b, older, rfl, hsent, List.forall_mem_cons.mpr ⟨hconfirm, hconfirms⟩, ?_,
        hlt'⟩
      show _ + e₀.checks = ([a] ++ newer).countP _
      rw [List.countP_append, hchecks]

/-- What holds of a desk that began with nothing pending, as long as no serial is used again. -/
structure Waits (d : Desk) (acts : List Act) : Prop where
  traders_eq : (d.run acts).2.traders = d.traders
  maxChecks_eq : (d.run acts).2.maxChecks = d.maxChecks
  lastSerial_le : (d.run acts).2.lastSerial.toNat ≤ Act.allCalls d.traders acts
  nodup : (d.run acts).2.ledger.pending.entries.keys.Nodup
  serial_le : ∀ n e, (d.run acts).2.ledger.pending.entries.get? n = some e →
    n.toNat ≤ (d.run acts).2.lastSerial.toNat
  pending_iff : ∀ n e, (d.run acts).2.ledger.pending.entries.get? n = some e ↔
    d.Awaits acts e ∧ e.serial = n

/-- Another act leaves just those requests pending that are awaited. -/
theorem Waits.cons (h : d.Waits acts) (hmax : 0 < d.maxChecks.toNat) {a : Act}
    (hcalls : Act.allCalls d.traders (a :: acts) < UInt32.size) : d.Waits (a :: acts) := by
  have hleads : (d.run acts).2.Leads (a.calls d.traders) (a.pending (d.run acts).2)
      (d.run (a :: acts)).2 := by
    rw [← h.traders_eq]
    exact leads_act (d.run acts).2 a
  rw [Act.allCalls] at hcalls
  have hlast := h.lastSerial_le
  have hle := hleads.lastSerial_le
  have hmono := hleads.le_lastSerial (by omega)
  have hkey : ∀ n e, (d.run acts).2.ledger.pending.entries.get? n = some e → e.serial = n :=
    fun n e he ↦ ((h.pending_iff n e).mp he).2
  -- a request takes a serial beyond all that are pending
  have hfree : ∀ e ∈ a.sent? (d.run acts).2,
      (d.run acts).2.ledger.pending.entries.get? e.serial = none := by
    intro e he
    obtain ⟨-, hserial, -, hcall⟩ := Act.of_sent? he
    rw [h.traders_eq] at hcall
    have hnext : (nextSerial (d.run acts).2.lastSerial).toNat =
        (d.run acts).2.lastSerial.toNat + 1 := toNat_nextSerial (by omega)
    rw [Option.eq_none_iff_forall_ne_some]
    intro e' he'
    have := h.serial_le _ e' he'
    rw [hserial] at this
    omega
  have hpending : ∀ n e, (d.run (a :: acts)).2.ledger.pending.entries.get? n = some e ↔
      d.Awaits (a :: acts) e ∧ e.serial = n := by
    intro n e
    rw [hleads.pending_eq, Act.get?_pending h.nodup hkey hfree,
      awaits_cons h.traders_eq h.maxChecks_eq hmax, or_and_right]
    apply or_congr_right
    constructor
    · rintro ⟨e₀, he₀, hkept⟩
      obtain ⟨hawaits, hn⟩ := (h.pending_iff n e₀).mp he₀
      exact ⟨⟨e₀, hawaits, hkept⟩, (Act.serial_of_keeps hkept).trans hn⟩
    · rintro ⟨⟨e₀, hawaits, hkept⟩, hn⟩
      exact ⟨e₀, (h.pending_iff n e₀).mpr ⟨hawaits, (Act.serial_of_keeps hkept).symm.trans hn⟩,
        hkept⟩
  refine ⟨hleads.traders_eq.trans h.traders_eq, hleads.maxChecks_eq.trans h.maxChecks_eq,
    ?_, ?_, fun n e he ↦ ?_, hpending⟩
  · rw [Act.allCalls]
    omega
  · rw [hleads.pending_eq]
    exact Act.nodup_pending h.nodup a
  · rw [hleads.pending_eq, Act.get?_pending h.nodup hkey hfree] at he
    rcases he with ⟨hsent, rfl⟩ | ⟨e₀, he₀, -⟩
    · have hl := (Act.of_sent? hsent).2.2.1
      exact Nat.le_of_eq (congrArg UInt32.toNat hl.symm)
    · exact Nat.le_trans (h.serial_le n e₀ he₀) hmono

/-- As long as no serial is used again, just those requests are pending that are awaited. -/
theorem waits_run (hserial : d.lastSerial = 0) (hpending : d.ledger.pending = .empty)
    (hmax : 0 < d.maxChecks.toNat) (hcalls : Act.allCalls d.traders acts < UInt32.size) :
    d.Waits acts := by
  induction acts with
  | nil =>
    refine ⟨rfl, rfl, ?_, ?_, fun n e he ↦ ?_, fun n e ↦ ⟨fun he ↦ ?_, fun he ↦ ?_⟩⟩
    · show d.lastSerial.toNat ≤ 0
      rw [hserial]
      exact Nat.le_refl 0
    · show d.ledger.pending.entries.keys.Nodup
      rw [hpending]
      exact List.nodup_nil
    · change d.ledger.pending.entries.get? n = some e at he
      rw [hpending] at he
      cases he
    · change d.ledger.pending.entries.get? n = some e at he
      rw [hpending] at he
      cases he
    · exact absurd he.1 (not_awaits_nil e)
  | cons a earlier ih =>
    rw [Act.allCalls] at hcalls
    exact (ih (by omega)).cons hmax hcalls

/-- In any run of a desk that makes fewer requests than there are serials, those in response to
answers included, a request is pending exactly when it went out under its serial, no venue has
confirmed it since, and its strategy has looked fewer times since than it may; it tells who sent
what, and how often the strategy has looked. No serial is pending twice. -/
theorem pending_iff_awaits (traders : List Trader) (bars : Bars) (maxChecks : UInt32)
    (outbox : Outbox) (acts : List Act) (hmax : 1 ≤ maxChecks)
    (hcalls : Act.allCalls (ofTraders traders bars maxChecks).traders acts < UInt32.size) :
    let d := { ofTraders traders bars maxChecks with outbox := outbox }
    let pending := (d.run acts).2.ledger.pending
    pending.entries.keys.Nodup ∧
      ∀ serial e, pending.entries.get? serial = some e ↔ d.Awaits acts e ∧ e.serial = serial := by
  intro d pending
  have hwaits : d.Waits acts := waits_run rfl rfl (UInt32.le_iff_toNat_le.mp hmax) hcalls
  exact ⟨hwaits.nodup, hwaits.pending_iff⟩

/-- An order whose answer is lost, and a cancellation whose answer comes; newest first. -/
def lostAnswer : List Act :=
  [.review "mavg",
   .deliver (.encode .cancelAnswer 2 quarterly.exchange
    (⟨{}, quarterly.symbol, quarterly.contract, ["7"], []⟩ : CancelResponse)),
   .review "mavg", .cancel "sweeper" ⟨quarterly, ["7"]⟩, oneContract]

/-- The order is awaited after two looks, and the cancellation is not. -/
theorem awaits_of_lostAnswer :
    let d := { ofTraders [⟨quarterly.exchange, .empty⟩] (.empty [] 30) 3 with outbox := {} }
    (1 : UInt32) ≤ 3 ∧
      Act.allCalls (ofTraders [⟨quarterly.exchange, .empty⟩] (.empty [] 30) 3).traders lostAnswer <
        UInt32.size ∧
      d.Awaits lostAnswer ⟨"mavg", 1, .placeOrder, quarterly.label, 2⟩ ∧
      ∀ e, d.Awaits lostAnswer e → e.serial ≠ 2 := by
  intro d
  have hmax : (1 : UInt32) ≤ 3 := by decide
  have hcalls : Act.allCalls (ofTraders [⟨quarterly.exchange, .empty⟩] (.empty [] 30) 3).traders
      lostAnswer < UInt32.size := by
    decide +kernel
  obtain ⟨-, hpending⟩ := pending_iff_awaits [⟨quarterly.exchange, .empty⟩] (.empty [] 30) 3 {}
    lostAnswer hmax hcalls
  have horder : (d.run lostAnswer).2.ledger.pending.entries.get? 1 =
      some ⟨"mavg", 1, .placeOrder, quarterly.label, 2⟩ := by
    decide +kernel
  have hcancel : (d.run lostAnswer).2.ledger.pending.entries.get? 2 = none := by
    decide +kernel
  refine ⟨hmax, hcalls, ((hpending 1 _).mp horder).1, fun e he hserial ↦ ?_⟩
  rw [(hpending 2 e).mpr ⟨he, hserial⟩] at hcancel
  cases hcancel

end Desk

end TradeDesk
