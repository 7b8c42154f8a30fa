import TradeDesk.Proofs.Mavg.Decisions
import TradeDesk.Proofs.Number.Order

/-!
# The discipline of the orders

Whatever a mode sees on a tick, it orders on the instrument of the outlook alone, at most once for
each side, and it opens a side or closes it, never both. What is held is never added to.
-/

namespace TradeDesk.Mavg

variable {m : ModeState} {d : Desk} {tick : Tick} {o : Outlook} {data : Data} {p : Position}
  {opens : UInt32} {side side' : Side} {deal : Deal}

/-! ### What is decided about a side -/

/-- The deals that a mode may want about a side of a position. -/
inductive Wants (m : ModeState) (d : Desk) (tick : Tick) (o : Outlook) (data : Data) (p : Position)
    (side : Side) : Deal → Prop where
  | opening {opens : UInt32} {vol : Float} {amount : Int64}
    (mode : m = .normal opens)
    (held : (side.pick p).amount ≤ 0.0)
    (signal : o.signal data.settings.signalTimeframe = side.openSignal)
    (count : opens < data.settings.openLimit)
    (bounds : clampVolume (o.balance * data.settings.stepRate) data.settings.minVol
      data.settings.maxVol = .ok vol)
    (size : d.contractAmount? o.key.exchange o.key.symbol tick.last vol = some amount) :
    Wants m d tick o data p side (.opening (openCommand tick o data side vol amount))
  | closing
    (mode : m.name ≠ .shutdown)
    (held : ¬ (side.pick p).amount ≤ 0.0)
    (due : exitReached (side.pick p) data.settings ∨
      o.signal data.settings.signalTimeframe = side.closeSignal)
    (size : 0 < Binary64.floorWord (side.pick p).available) :
    Wants m d tick o data p side
      (.closing (closeCommand o data side (Binary64.floorWord (side.pick p).available))
        (side.pick p).floatProfit)

theorem wants_of_normalDeal? (h : normalDeal? d tick o data p opens side = .ok (some deal)) :
    Wants (.normal opens) d tick o data p side deal := by
  unfold normalDeal? at h
  simp only at h
  split at h
  · next hheld =>
    split at h
    · next hmay =>
      obtain ⟨vol, amount, hvol, hamount, rfl⟩ := opening?_eq_ok_some h
      exact .opening rfl hheld hmay.1 hmay.2 hvol hamount
    · cases h
  · next hheld =>
    split at h
    · next hdue =>
      obtain ⟨hamount, rfl⟩ := closing?_eq_some (Except.ok.inj h)
      refine .closing (by simp [ModeState.name]) hheld ?_ hamount
      simpa using hdue
    · cases h

theorem wants_of_defenseDeal? (h : defenseDeal? o data p side = some deal) :
    Wants .defense d tick o data p side deal := by
  unfold defenseDeal? at h
  simp only at h
  split at h
  · next hdue =>
    obtain ⟨hamount, rfl⟩ := closing?_eq_some h
    exact .closing (by simp [ModeState.name]) (Binary64.not_le_of_lt hdue.1) hdue.2 hamount
  · cases h

/-- What is decided of both sides is at most one deal for each, the long side's first. -/
theorem deals_ofSides (target : ModeName) (x y : Except Fault (Option Deal)) :
    ∃ long short : Option Deal, (Decision.ofSides target x y).deals = long.toList ++ short.toList ∧
      (∀ deal ∈ long, x = .ok (some deal)) ∧ ∀ deal ∈ short, y = .ok (some deal) := by
  cases x with
  | error f => exact ⟨none, none, rfl, by simp, by simp⟩
  | ok long =>
    cases y with
    | error f => exact ⟨long, none, (List.append_nil _).symm, by simp, by simp⟩
    | ok short => exact ⟨long, short, rfl, by simp, by simp⟩

/-- A mode wants nothing, or it looks at a position that can be relied on and wants at most one deal
for each side, the long side's first. -/
theorem deals_decision (m : ModeState) (d : Desk) (tick : Tick) (o : Outlook) (data : Data) :
    (m.decision d tick o data).deals = [] ∨
      ∃ (p : Position) (long short : Option Deal),
        (m.decision d tick o data).deals = long.toList ++ short.toList ∧
        o.validPosition? = some p ∧ data.tally.limitReached = false ∧
        (m.name = .normal → ¬ o.balance < data.settings.minVol) ∧
        (∀ deal ∈ long, Wants m d tick o data p .long deal) ∧
        ∀ deal ∈ short, Wants m d tick o data p .short deal := by
  cases m with
  | normal opens =>
    simp only [ModeState.decision, ModeState.normalDecision]
    cases hlimit : data.tally.limitReached with
    | true => exact Or.inl rfl
    | false =>
      cases hp : o.validPosition? with
      | none => exact Or.inl rfl
      | some p =>
        rw [if_neg Bool.false_ne_true]
        dsimp only
        split
        · exact Or.inl rfl
        · next hbalance =>
          obtain ⟨long, short, hdeals, hlong, hshort⟩ := deals_ofSides .normal
            (normalDeal? d tick o data p opens .long) (normalDeal? d tick o data p opens .short)
          refine Or.inr ⟨p, long, short, hdeals, rfl, rfl, fun _ ↦ hbalance, ?_, ?_⟩
          · exact fun deal hdeal ↦ wants_of_normalDeal? (hlong deal hdeal)
          · exact fun deal hdeal ↦ wants_of_normalDeal? (hshort deal hdeal)
  | defense =>
    simp only [ModeState.decision, ModeState.defenseDecision]
    cases hlimit : data.tally.limitReached with
    | true => exact Or.inl rfl
    | false =>
      cases hp : o.validPosition? with
      | none => exact Or.inl rfl
      | some p =>
        refine Or.inr ⟨p, defenseDeal? o data p .long, defenseDeal? o data p .short, rfl, rfl, rfl,
          ?_, ?_, ?_⟩
        · simp [ModeState.name]
        · exact fun deal hdeal ↦ wants_of_defenseDeal? hdeal
        · exact fun deal hdeal ↦ wants_of_defenseDeal? hdeal
  | shutdown since shutdowns => exact Or.inl rfl

/-! ### Orders -/

namespace Side

/-- The order is about that side of the position. -/
def Owns (s : Side) (c : OrderCommand) : Prop :=
  c.orderType = s.openType ∨ c.orderType = s.closeType

instance (s : Side) (c : OrderCommand) : Decidable (s.Owns c) :=
  inferInstanceAs (Decidable (_ ∨ _))

theorem openType_inj {s t : Side} : s.openType = t.openType ↔ s = t := by
  cases s <;> cases t <;> decide

theorem closeType_inj {s t : Side} : s.closeType = t.closeType ↔ s = t := by
  cases s <;> cases t <;> decide

theorem openType_ne_closeType (s t : Side) : s.openType ≠ t.closeType := by
  cases s <;> cases t <;> decide

/-- An order is about one side. -/
theorem Owns.unique {s t : Side} {c : OrderCommand} (hs : s.Owns c) (ht : t.Owns c) : s = t := by
  unfold Owns at hs ht
  cases s <;> cases t <;> grind [openType, closeType]

end Side

/-- What holds of the orders that a mode places on one tick, in the order in which they go out. -/
structure Disciplined (m : ModeState) (o : Outlook) (data : Data) (cs : List OrderCommand) :
    Prop where
  key_eq : ∀ c ∈ cs, c.key = o.key
  /-- Nothing is ordered in shutdown. -/
  rests : m.name = .shutdown → cs = []
  /-- Nothing is ordered after too many losses, or without a position to rely on. -/
  waits : data.tally.limitReached = true ∨ o.validPosition? = none → cs = []
  /-- Nothing is ordered in normal mode if the balance is too small. -/
  saves : m.name = .normal → o.balance < data.settings.minVol → cs = []
  /-- Each order is about a side. -/
  sided : ∀ c ∈ cs, ∃ side : Side, side.Owns c
  /-- There is one order for each side at most. -/
  once : ∀ side : Side, cs.countP (side.Owns ·) ≤ 1
  /-- The long side's order goes out first. -/
  ordered : cs.Pairwise fun c c' ↦ Side.long.Owns c ∧ Side.short.Owns c'
  /-- An order opens a side only in normal mode, if nothing is held on it, on the signal for it, and
  while there were fewer openings than allowed. -/
  opens : ∀ side : Side, ∀ c ∈ cs, c.orderType = side.openType → ∃ (n : UInt32) (p : Position),
    m = .normal n ∧ o.validPosition? = some p ∧ (side.pick p).amount ≤ 0.0 ∧
    o.signal data.settings.signalTimeframe = side.openSignal ∧ n < data.settings.openLimit
  opens_once : cs.countP (fun c ↦ c.orderType = .openLong ∨ c.orderType = .openShort) ≤ 1
  /-- An order closes a side only if something is held on it, at a rate that ends it or on the
  opposite signal. -/
  closes : ∀ side : Side, ∀ c ∈ cs, c.orderType = side.closeType → ∃ p : Position,
    o.validPosition? = some p ∧ ¬ (side.pick p).amount ≤ 0.0 ∧
    (exitReached (side.pick p) data.settings ∨
      o.signal data.settings.signalTimeframe = side.closeSignal)
  /-- A side is not both opened and closed. -/
  apart : ∀ side : Side, ∀ c ∈ cs, c.orderType = side.openType →
    ∀ c' ∈ cs, c'.orderType ≠ side.closeType

namespace Wants

theorem key_eq (h : Wants m d tick o data p side deal) : deal.command.key = o.key := by
  cases h <;> rfl

theorem owns (h : Wants m d tick o data p side deal) : side.Owns deal.command := by
  cases h with
  | opening => exact Or.inl rfl
  | closing => exact Or.inr rfl

theorem name_ne (h : Wants m d tick o data p side deal) : m.name ≠ .shutdown := by
  cases h with
  | opening mode => simp [mode, ModeState.name]
  | closing mode => exact mode

/-- What it takes to open a side. -/
theorem of_openType (h : Wants m d tick o data p side deal)
    (ht : deal.command.orderType = side'.openType) : ∃ n : UInt32, m = .normal n ∧
      (side'.pick p).amount ≤ 0.0 ∧
      o.signal data.settings.signalTimeframe = side'.openSignal ∧ n < data.settings.openLimit := by
  cases h with
  | opening mode held signal count =>
    obtain rfl := Side.openType_inj.mp ht
    exact ⟨_, mode, held, signal, count⟩
  | closing => exact absurd ht.symm (Side.openType_ne_closeType side' side)

/-- What it takes to close a side. -/
theorem of_closeType (h : Wants m d tick o data p side deal)
    (ht : deal.command.orderType = side'.closeType) : ¬ (side'.pick p).amount ≤ 0.0 ∧
      (exitReached (side'.pick p) data.settings ∨
        o.signal data.settings.signalTimeframe = side'.closeSignal) := by
  cases h with
  | opening => exact absurd ht (Side.openType_ne_closeType side side')
  | closing mode held due =>
    obtain rfl := Side.closeType_inj.mp ht
    exact ⟨held, due⟩

end Wants

/-- Whatever deal is decided on, a mode wants it about a side of a position that can be relied on. -/
theorem wants_of_mem_deals (h : deal ∈ (m.decision d tick o data).deals) :
    data.tally.limitReached = false ∧ (m.name = .normal → ¬ o.balance < data.settings.minVol) ∧
      ∃ p side, o.validPosition? = some p ∧ Wants m d tick o data p side deal := by
  rcases deals_decision m d tick o data with
    hnone | ⟨p, long, short, hdeals, hp, hlimit, hbalance, hlong, hshort⟩
  · simp [hnone] at h
  · refine ⟨hlimit, hbalance, p, ?_⟩
    rw [hdeals, List.mem_append, Option.mem_toList, Option.mem_toList] at h
    cases h with
    | inl h => exact ⟨.long, hp, hlong deal h⟩
    | inr h => exact ⟨.short, hp, hshort deal h⟩

/-- Whatever is ordered, a mode wants it about a side of a position that can be relied on. -/
theorem wants_of_mem_orders {c : OrderCommand} (hc : c ∈ m.orders d tick o data) :
    data.tally.limitReached = false ∧ (m.name = .normal → ¬ o.balance < data.settings.minVol) ∧
      ∃ p side deal, o.validPosition? = some p ∧ Wants m d tick o data p side deal ∧
        deal.command = c := by
  obtain ⟨deal, hdeal, hcommand⟩ := List.mem_map.mp hc
  obtain ⟨hlimit, hbalance, p, side, hp, hwants⟩ := wants_of_mem_deals hdeal
  exact ⟨hlimit, hbalance, p, side, deal, hp, hwants, hcommand⟩

/-- There is one order at most, or one of the long side and then one of the short side. -/
theorem orders_cases (m : ModeState) (d : Desk) (tick : Tick) (o : Outlook) (data : Data) :
    m.orders d tick o data = [] ∨ (∃ c, m.orders d tick o data = [c]) ∨
      ∃ c c', m.orders d tick o data = [c, c'] ∧ Side.long.Owns c ∧ Side.short.Owns c' := by
  unfold ModeState.orders
  rcases deals_decision m d tick o data with
    hnone | ⟨p, long, short, hdeals, -, -, -, hlong, hshort⟩
  · simp [hnone]
  · rw [hdeals]
    cases long with
    | none => cases short <;> simp
    | some first =>
      cases short with
      | none => simp
      | some second =>
        exact Or.inr (Or.inr ⟨first.command, second.command, rfl, (hlong first rfl).owns,
          (hshort second rfl).owns⟩)

theorem length_orders_le (m : ModeState) (d : Desk) (tick : Tick) (o : Outlook) (data : Data) :
    (m.orders d tick o data).length ≤ 2 := by
  rcases orders_cases m d tick o data with hcs | ⟨c, hcs⟩ | ⟨c, c', hcs, -, -⟩ <;> simp [hcs]

private theorem opens_orders {c : OrderCommand} (hc : c ∈ m.orders d tick o data)
    (ht : c.orderType = side.openType) : ∃ (n : UInt32) (p : Position),
      m = .normal n ∧ o.validPosition? = some p ∧ (side.pick p).amount ≤ 0.0 ∧
      o.signal data.settings.signalTimeframe = side.openSignal ∧ n < data.settings.openLimit := by
  obtain ⟨-, -, p, side', deal, hp, hdeal, rfl⟩ := wants_of_mem_orders hc
  obtain ⟨n, hm, hheld, hsignal, hn⟩ := hdeal.of_openType ht
  exact ⟨n, p, hm, hp, hheld, hsignal, hn⟩

private theorem closes_orders {c : OrderCommand} (hc : c ∈ m.orders d tick o data)
    (ht : c.orderType = side.closeType) : ∃ p : Position, o.validPosition? = some p ∧
      ¬ (side.pick p).amount ≤ 0.0 ∧ (exitReached (side.pick p) data.settings ∨
        o.signal data.settings.signalTimeframe = side.closeSignal) := by
  obtain ⟨-, -, p, side', deal, hp, hdeal, rfl⟩ := wants_of_mem_orders hc
  exact ⟨p, hp, hdeal.of_closeType ht⟩

/-- Two openings would need two signals. -/
private theorem opens_once_orders (m : ModeState) (d : Desk) (tick : Tick) (o : Outlook)
    (data : Data) : (m.orders d tick o data).countP
      (fun c ↦ c.orderType = .openLong ∨ c.orderType = .openShort) ≤ 1 := by
  rcases orders_cases m d tick o data with hcs | ⟨c, hcs⟩ | ⟨c, c', hcs, hlong, hshort⟩
  · simp [hcs]
  · rw [hcs]
    exact List.countP_le_length
  · have hfirst : c.orderType = Side.long.openType →
        o.signal data.settings.signalTimeframe = .buy := by
      intro ht
      obtain ⟨-, -, -, -, -, hsignal, -⟩ := opens_orders (hcs ▸ List.mem_cons_self) ht
      exact hsignal
    have hsecond : c'.orderType = Side.short.openType →
        o.signal data.settings.signalTimeframe = .sell := by
      intro ht
      obtain ⟨-, -, -, -, -, hsignal, -⟩ := opens_orders
        (hcs ▸ List.mem_cons_of_mem c List.mem_cons_self) ht
      exact hsignal
    rw [hcs, List.countP_cons, List.countP_cons, List.countP_nil]
    rcases hlong with hlong | hlong
    · rcases hshort with hshort | hshort
      · have hsignal := (hfirst hlong).symm.trans (hsecond hshort)
        cases hsignal
      · have hclosing : ¬ decide (c'.orderType = .openLong ∨ c'.orderType = .openShort) := by
          rw [hshort]
          decide
        rw [if_neg hclosing]
        split <;> omega
    · have hclosing : ¬ decide (c.orderType = .openLong ∨ c.orderType = .openShort) := by
        rw [hlong]
        decide
      rw [if_neg hclosing]
      split <;> omega

/-- The orders of a mode keep the discipline, also those before a fault. -/
theorem disciplined_orders (m : ModeState) (d : Desk) (tick : Tick) (o : Outlook) (data : Data) :
    Disciplined m o data (m.orders d tick o data) where
  key_eq c hc := by
    obtain ⟨-, -, p, side, deal, -, hdeal, rfl⟩ := wants_of_mem_orders hc
    exact hdeal.key_eq
  rests hm := by
    refine List.eq_nil_iff_forall_not_mem.mpr fun c hc ↦ ?_
    obtain ⟨-, -, p, side, deal, -, hdeal, -⟩ := wants_of_mem_orders hc
    exact hdeal.name_ne hm
  waits h := by
    refine List.eq_nil_iff_forall_not_mem.mpr fun c hc ↦ ?_
    obtain ⟨hlimit, -, p, side, deal, hp, -, -⟩ := wants_of_mem_orders hc
    simp [hlimit, hp] at h
  saves hm hbalance := by
    refine List.eq_nil_iff_forall_not_mem.mpr fun c hc ↦ ?_
    exact (wants_of_mem_orders hc).2.1 hm hbalance
  sided c hc := by
    obtain ⟨-, -, p, side, deal, -, hdeal, rfl⟩ := wants_of_mem_orders hc
    exact ⟨side, hdeal.owns⟩
  once side := by
    rcases orders_cases m d tick o data with hcs | ⟨c, hcs⟩ | ⟨c, c', hcs, hlong, hshort⟩
    · simp [hcs]
    · rw [hcs]
      exact List.countP_le_length
    · rw [hcs]
      cases side with
      | long =>
        have hother : ¬ Side.long.Owns c' := fun h ↦ nomatch h.unique hshort
        simp [hlong, hother]
      | short =>
        have hother : ¬ Side.short.Owns c := fun h ↦ nomatch h.unique hlong
        simp [hshort, hother]
  ordered := by
    rcases orders_cases m d tick o data with hcs | ⟨c, hcs⟩ | ⟨c, c', hcs, hlong, hshort⟩
    · simp [hcs]
    · simp [hcs]
    · simp [hcs, hlong, hshort]
  opens side c hc := opens_orders hc
  opens_once := opens_once_orders m d tick o data
  closes side c hc := closes_orders hc
  apart side c hc ht c' hc' ht' := by
    obtain ⟨n, p, -, hp, hheld, -, -⟩ := opens_orders hc ht
    obtain ⟨p', hp', hheld', -⟩ := closes_orders hc' ht'
    rw [hp] at hp'
    cases hp'
    exact hheld' hheld

/-- What a mode does to the desk on a tick is to place orders, one after another, that keep the
discipline; a fault ends them. -/
theorem decide_disciplined (m : ModeState) (d : Desk) (tick : Tick) (o : Outlook) (data : Data) :
    (Mode.decide m d tick o data).map (·.2.2.1) =
        (m.decision d tick o data).target.map
          (fun _ ↦ d.placeAll strategyName (m.orders d tick o data)) ∧
      Disciplined m o data (m.orders d tick o data) :=
  ⟨desk_decide m d tick o data, disciplined_orders m d tick o data⟩

end TradeDesk.Mavg
