import TradeDesk.Mavg.Strategy
import TradeDesk.Proofs.Fault

/-!
# Decisions of the moving-average strategy

What a mode does on a tick is settled by what it sees when the tick comes: which orders it wants,
the long side's first, and which mode is to be next. The orders are then carried out one after
another. Neither the desk nor the tally that the first order leaves has a part in the second.
-/

namespace TradeDesk

namespace Desk

variable {d : Desk}

/-- Orders placed one after another. -/
def placeAll (d : Desk) (strategy : String) (cs : List OrderCommand) : Desk :=
  cs.foldl (fun d c ↦ (d.placeOrder strategy c).2) d

/-- An order leaves the traders as they are. -/
theorem traders_placeOrder (d : Desk) (strategy : String) (c : OrderCommand) :
    (d.placeOrder strategy c).2.traders = d.traders := by
  unfold placeOrder request
  cases d.traders.get? c.key.exchange <;> rfl

/-- An order goes out if there is a trader for it. -/
theorem isSome_placeOrder (d : Desk) (strategy : String) (c : OrderCommand) :
    (d.placeOrder strategy c).1.isSome = (d.traders.get? c.key.exchange).isSome := by
  unfold placeOrder request
  cases d.traders.get? c.key.exchange <;> rfl

/-- What can be sized has a trader. -/
theorem isSome_of_contractAmount? {exchange symbol : String} {price vol : Float} {n : Int64}
    (h : d.contractAmount? exchange symbol price vol = some n) :
    (d.traders.get? exchange).isSome := by
  unfold contractAmount? at h
  cases ht : d.traders.get? exchange with
  | none => simp [ht] at h
  | some t => rfl

end Desk

namespace Mavg

/-! ### Deals -/

/-- An order that a mode wants, with what it tells the tally. -/
inductive Deal where
  | opening (command : OrderCommand)
  | closing (command : OrderCommand) (profit : Float)

namespace Deal

def command : Deal → OrderCommand
  | opening c => c
  | closing c _ => c

/-- What the tally notes once the order is out. -/
def note (t : Tally) : Deal → Tally
  | opening c => t.noteOpen c.key.symbol
  | closing c profit => t.noteClose c.key.symbol profit

/-- The openings counted so far, with this deal. -/
def count (opens : UInt32) : Deal → UInt32
  | opening _ => opens + 1
  | closing _ _ => opens

/-- Places the order; the tally notes it if it goes out. -/
def carry (x : Desk × Data) (deal : Deal) : Desk × Data :=
  match x.1.placeOrder strategyName deal.command with
  | (none, d) => (d, x.2)
  | (some _, d) => (d, { x.2 with tally := deal.note x.2.tally })

/-- Deals carried out one after another. -/
def carryAll (deals : List Deal) (x : Desk × Data) : Desk × Data := deals.foldl carry x

variable (x : Desk × Data) (deal : Deal)

/-- Whether the tally notes a deal depends on there being a trader for it. -/
theorem carry_eq :
    carry x deal = ((x.1.placeOrder strategyName deal.command).2,
      if (x.1.traders.get? deal.command.key.exchange).isSome then
        { x.2 with tally := deal.note x.2.tally } else x.2) := by
  rw [← x.1.isSome_placeOrder strategyName deal.command]
  unfold carry
  rcases x.1.placeOrder strategyName deal.command with ⟨_ | serial, d⟩
  · rfl
  · rfl

@[simp] theorem traders_carry : (carry x deal).1.traders = x.1.traders := by
  rw [carry_eq, Desk.traders_placeOrder]

@[simp] theorem settings_carry : (carry x deal).2.settings = x.2.settings := by
  rw [carry_eq]
  simp only
  split <;> rfl

@[simp] theorem traders_carryAll (deals : List Deal) :
    (carryAll deals x).1.traders = x.1.traders := by
  induction deals generalizing x with
  | nil => rfl
  | cons deal rest ih => exact (ih (carry x deal)).trans (traders_carry x deal)

@[simp] theorem settings_carryAll (deals : List Deal) :
    (carryAll deals x).2.settings = x.2.settings := by
  induction deals generalizing x with
  | nil => rfl
  | cons deal rest ih => exact (ih (carry x deal)).trans (settings_carry x deal)

/-- What deals do to the desk is to place their orders. -/
theorem fst_carryAll (deals : List Deal) :
    (carryAll deals x).1 = x.1.placeAll strategyName (deals.map command) := by
  induction deals generalizing x with
  | nil => rfl
  | cons deal rest ih =>
    have hfirst : (carry x deal).1 = (x.1.placeOrder strategyName deal.command).2 := by
      rw [carry_eq]
    have hrest := ih (carry x deal)
    rw [hfirst] at hrest
    exact hrest

theorem carryAll_append (as bs : List Deal) :
    carryAll (as ++ bs) x = carryAll bs (carryAll as x) := List.foldl_append

end Deal

/-! ### Sides -/

/-- The deal that closes what is available of a side, if that is one contract at least. -/
def closing? (o : Outlook) (data : Data) (side : Side) (held : PositionSide) : Option Deal :=
  let amount := Binary64.floorWord held.available
  if amount ≤ 0 then none
  else some (.closing (closeCommand o data side amount) held.floatProfit)

/-- The deal that opens a side for a share of the balance, if that pays for a contract. -/
def opening? (d : Desk) (tick : Tick) (o : Outlook) (data : Data) (side : Side) :
    Except Fault (Option Deal) := do
  let s := data.settings
  let vol ← clampVolume (o.balance * s.stepRate) s.minVol s.maxVol
  return (d.contractAmount? o.key.exchange o.key.symbol tick.last vol).map fun amount ↦
    .opening (openCommand tick o data side vol amount)

/-- What normal mode wants to do about a side, after `opens` openings. -/
def normalDeal? (d : Desk) (tick : Tick) (o : Outlook) (data : Data) (p : Position)
    (opens : UInt32) (side : Side) : Except Fault (Option Deal) :=
  let signal := o.signal data.settings.signalTimeframe
  let held := side.pick p
  if held.amount ≤ 0.0 then
    if signal = side.openSignal ∧ opens < data.settings.openLimit then opening? d tick o data side
    else .ok none
  else if exitReached held data.settings || signal = side.closeSignal then
    .ok (closing? o data side held)
  else .ok none

/-- What defense mode wants to do about a side. -/
def defenseDeal? (o : Outlook) (data : Data) (p : Position) (side : Side) : Option Deal :=
  let held := side.pick p
  if 0.0 < held.amount ∧
      (exitReached held data.settings ∨
        o.signal data.settings.signalTimeframe = side.closeSignal) then
    closing? o data side held
  else none

variable {d d' : Desk} {tick : Tick} {o : Outlook} {data data' : Data} {p : Position}
  {opens opens' : UInt32} {side : Side} {deal : Deal}

/-- A closing is for the available contracts, of which there is one at least. -/
theorem closing?_eq_some {held : PositionSide} (h : closing? o data side held = some deal) :
    0 < Binary64.floorWord held.available ∧
      deal = .closing (closeCommand o data side (Binary64.floorWord held.available))
        held.floatProfit := by
  unfold closing? at h
  simp only at h
  split at h
  · cases h
  · next hamount =>
    cases h
    exact ⟨Int64.not_le.mp hamount, rfl⟩

/-- An opening is sized by the trader from a volume within the bounds. -/
theorem opening?_eq_ok_some (h : opening? d tick o data side = .ok (some deal)) :
    ∃ vol amount,
      clampVolume (o.balance * data.settings.stepRate) data.settings.minVol data.settings.maxVol =
        .ok vol ∧
      d.contractAmount? o.key.exchange o.key.symbol tick.last vol = some amount ∧
      deal = .opening (openCommand tick o data side vol amount) := by
  unfold opening? at h
  obtain ⟨vol, hvol, h⟩ := Except.bind_eq_ok.mp h
  obtain ⟨amount, hamount, hdeal⟩ := Option.map_eq_some_iff.mp (Except.ok.inj h)
  exact ⟨vol, amount, hvol, hamount, hdeal.symm⟩

private theorem closing?_congr (hs : data'.settings = data.settings) (held : PositionSide) :
    closing? o data' side held = closing? o data side held := by
  unfold closing? closeCommand
  rw [hs]

/-- Of what the strategy keeps, a defending deal depends on the settings alone. -/
theorem defenseDeal?_congr (hs : data'.settings = data.settings) :
    defenseDeal? o data' p side = defenseDeal? o data p side := by
  unfold defenseDeal?
  simp only [closing?_congr hs, hs]

/-- Of the desk a deal depends on the traders alone, and on the count of openings only where the
side may be opened. -/
theorem normalDeal?_congr (ht : d'.traders = d.traders) (hs : data'.settings = data.settings)
    (ho : o.signal data.settings.signalTimeframe = side.openSignal → opens' = opens) :
    normalDeal? d' tick o data' p opens' side = normalDeal? d tick o data p opens side := by
  have hopening : opening? d' tick o data' side = opening? d tick o data side := by
    unfold opening? openCommand Desk.contractAmount?
    rw [ht, hs]
  have hmay : (o.signal data.settings.signalTimeframe = side.openSignal ∧
      opens' < data.settings.openLimit) ↔ (o.signal data.settings.signalTimeframe =
      side.openSignal ∧ opens < data.settings.openLimit) := by
    refine and_congr_right fun hsignal ↦ ?_
    rw [ho hsignal]
  unfold normalDeal?
  simp only [hopening, closing?_congr hs, hs, hmay]

theorem closeSide_eq (d : Desk) (o : Outlook) (data : Data) (side : Side) (held : PositionSide) :
    closeSide d o data side held =
      Deal.carryAll (closing? o data side held).toList (d, data) := by
  unfold closeSide closing?
  simp only
  split
  · rfl
  · simp only [Option.toList, Deal.carryAll, List.foldl_cons, List.foldl_nil, Deal.carry,
      Deal.command]
    rcases d.placeOrder strategyName (closeCommand o data side (Binary64.floorWord held.available))
      with ⟨_ | serial, d₁⟩
    · rfl
    · rfl

theorem openSide_eq (d : Desk) (tick : Tick) (o : Outlook) (data : Data) (side : Side) :
    openSide d tick o data side = (opening? d tick o data side).map fun deal? ↦
      (deal?.isSome, Deal.carryAll deal?.toList (d, data)) := by
  unfold openSide opening?
  simp only
  cases clampVolume (o.balance * data.settings.stepRate) data.settings.minVol
    data.settings.maxVol with
  | error f => rfl
  | ok vol =>
    simp only [Except.ok_bind]
    cases hc : d.contractAmount? o.key.exchange o.key.symbol tick.last vol with
    | none => rfl
    | some amount =>
      have hsent := d.isSome_placeOrder strategyName (openCommand tick o data side vol amount)
      rw [show (d.traders.get? (openCommand tick o data side vol amount).key.exchange).isSome =
        true from Desk.isSome_of_contractAmount? hc] at hsent
      simp only [Except.map, pure, Except.pure, Option.map_some, Option.toList, Deal.carryAll,
        List.foldl_cons, List.foldl_nil, Deal.carry, Deal.command]
      generalize d.placeOrder strategyName (openCommand tick o data side vol amount) = x at hsent ⊢
      obtain ⟨_ | serial, d₁⟩ := x
      · cases hsent
      · rfl

theorem handleSide_eq (d : Desk) (tick : Tick) (o : Outlook) (data : Data) (p : Position)
    (opens : UInt32) (side : Side) :
    handleSide d tick o data p opens side =
      (normalDeal? d tick o data p opens side).map fun deal? ↦
        (deal?.toList.foldl Deal.count opens, Deal.carryAll deal?.toList (d, data)) := by
  unfold handleSide normalDeal?
  simp only
  split
  · split
    · rw [openSide_eq]
      cases h : opening? d tick o data side with
      | error f => rfl
      | ok deal? =>
        cases deal? with
        | none => rfl
        | some deal =>
          obtain ⟨vol, amount, -, -, rfl⟩ := opening?_eq_ok_some h
          rfl
    · rfl
  · split
    · rw [closeSide_eq]
      cases h : closing? o data side (side.pick p) with
      | none => rfl
      | some deal =>
        obtain ⟨-, rfl⟩ := closing?_eq_some h
        rfl
    · rfl

theorem defendSide_eq (d : Desk) (o : Outlook) (data : Data) (p : Position) (side : Side) :
    defendSide d o data p side = Deal.carryAll (defenseDeal? o data p side).toList (d, data) := by
  unfold defendSide defenseDeal?
  simp only
  split
  · exact closeSide_eq d o data side (side.pick p)
  · rfl

/-! ### Modes -/

/-- What a mode makes of a tick: the deals that it wants, in turn, and the mode that is to be next.
After a fault there is no next mode, and the deals are those before it. -/
structure Decision where
  deals : List Deal
  target : Except Fault ModeName

namespace Decision

/-- Both sides, the long one first; a fault on one ends the decision. -/
def ofSides (target : ModeName) : Except Fault (Option Deal) → Except Fault (Option Deal) → Decision
  | .error f, _ => ⟨[], .error f⟩
  | .ok long, .error f => ⟨long.toList, .error f⟩
  | .ok long, .ok short => ⟨long.toList ++ short.toList, .ok target⟩

end Decision

namespace ModeState

/-- What normal mode decides on a tick, after `opens` openings. -/
def normalDecision (opens : UInt32) (d : Desk) (tick : Tick) (o : Outlook) (data : Data) :
    Decision :=
  if data.tally.limitReached then ⟨[], .ok .shutdown⟩
  else
    match o.validPosition? with
    | none => ⟨[], .ok .normal⟩
    | some p =>
      if o.balance < data.settings.minVol then ⟨[], .ok .defense⟩
      else .ofSides .normal (normalDeal? d tick o data p opens .long)
        (normalDeal? d tick o data p opens .short)

/-- What defense mode decides on a tick. -/
def defenseDecision (o : Outlook) (data : Data) : Decision :=
  if data.tally.limitReached then ⟨[], .ok .shutdown⟩
  else
    match o.validPosition? with
    | none => ⟨[], .ok .defense⟩
    | some p =>
      .ofSides (if data.settings.minVol ≤ o.balance then .normal else .defense)
        (.ok (defenseDeal? o data p .long)) (.ok (defenseDeal? o data p .short))

/-- What a mode decides on a tick. -/
def decision (m : ModeState) (d : Desk) (tick : Tick) (o : Outlook) (data : Data) : Decision :=
  match m with
  | normal opens => normalDecision opens d tick o data
  | defense => defenseDecision o data
  | shutdown since _ => ⟨[], .ok (decideShutdown since tick data)⟩

/-- The orders that a mode wants on a tick, in turn. -/
def orders (m : ModeState) (d : Desk) (tick : Tick) (o : Outlook) (data : Data) :
    List OrderCommand :=
  (m.decision d tick o data).deals.map Deal.command

/-- The mode once deals are carried out: normal mode has counted its openings. -/
def after (m : ModeState) (deals : List Deal) : ModeState :=
  match m with
  | normal opens => normal (deals.foldl Deal.count opens)
  | defense => defense
  | shutdown since shutdowns => shutdown since shutdowns

end ModeState

/-- What is left of a decision once it is carried out. -/
def Decision.carryOut (x : Decision) (m : ModeState) (d : Desk) (data : Data) :
    Except Fault (ModeName × ModeState × Desk × Data) :=
  x.target.map fun target ↦ (target, m.after x.deals, Deal.carryAll x.deals (d, data))

/-- The short side's deal is the same after the long side's is carried out. -/
private theorem normalDeal?_short {long : Option Deal}
    (h : normalDeal? d tick o data p opens .long = .ok long) :
    normalDeal? (Deal.carryAll long.toList (d, data)).1 tick o
        (Deal.carryAll long.toList (d, data)).2 p (long.toList.foldl Deal.count opens) .short =
      normalDeal? d tick o data p opens .short := by
  refine normalDeal?_congr (by simp) (by simp) fun hsell ↦ ?_
  cases long with
  | none => rfl
  | some deal =>
    unfold normalDeal? at h
    simp only at h
    -- Where the short side may be opened, the long side can only have been closed.
    split at h
    · simp [hsell, Side.openSignal] at h
    · split at h
      · obtain ⟨-, rfl⟩ := closing?_eq_some (Except.ok.inj h)
        rfl
      · cases h

private theorem decideNormal_eq (opens : UInt32) (d : Desk) (tick : Tick) (o : Outlook)
    (data : Data) : ModeState.decideNormal opens d tick o data =
      (ModeState.normalDecision opens d tick o data).carryOut (.normal opens) d data := by
  unfold ModeState.decideNormal ModeState.normalDecision
  split
  · rfl
  · cases o.validPosition? with
    | none => rfl
    | some p =>
      simp only
      split
      · rfl
      · rw [handleSide_eq]
        cases hlong : normalDeal? d tick o data p opens .long with
        | error f => rfl
        | ok long =>
          simp only [Except.map, Except.ok_bind]
          rw [handleSide_eq, normalDeal?_short hlong]
          cases normalDeal? d tick o data p opens .short with
          | error f => rfl
          | ok short =>
            simp only [Except.map, Except.ok_bind, Decision.ofSides, Decision.carryOut,
              ModeState.after, List.foldl_append, Deal.carryAll_append]
            rfl

private theorem decideDefense_eq (d : Desk) (o : Outlook) (data : Data) :
    Except.ok (ModeState.decideDefense d o data) =
      (ModeState.defenseDecision o data).carryOut .defense d data := by
  unfold ModeState.decideDefense ModeState.defenseDecision
  split
  · rfl
  · cases o.validPosition? with
    | none => rfl
    | some p =>
      have hshort : defenseDeal? o (Deal.carryAll (defenseDeal? o data p .long).toList
          (d, data)).2 p .short = defenseDeal? o data p .short := defenseDeal?_congr (by simp)
      simp only [defendSide_eq, hshort, Decision.ofSides, Decision.carryOut, ModeState.after,
        Deal.carryAll_append, Except.map, Deal.settings_carryAll]

/-- A mode does what it decides on what it sees when the tick comes. -/
theorem decide_eq (m : ModeState) (d : Desk) (tick : Tick) (o : Outlook) (data : Data) :
    Mode.decide m d tick o data = (m.decision d tick o data).carryOut m d data := by
  cases m with
  | normal opens => exact decideNormal_eq opens d tick o data
  | defense => exact decideDefense_eq d o data
  | shutdown since shutdowns => rfl

/-- What a mode does to the desk is to place the orders that it wants. -/
theorem desk_decide (m : ModeState) (d : Desk) (tick : Tick) (o : Outlook) (data : Data) :
    (Mode.decide m d tick o data).map (·.2.2.1) =
      (m.decision d tick o data).target.map
        fun _ ↦ d.placeAll strategyName (m.orders d tick o data) := by
  rw [decide_eq, Decision.carryOut, ModeState.orders, ← Deal.fst_carryAll (d, data)]
  cases (m.decision d tick o data).target <;> rfl

/-! ### Faults -/

variable {m : ModeState}

theorem clampVolume_eq_error_iff {vol low high : Float} :
    clampVolume vol low high = .error .volumeBounds ↔ ¬ low ≤ high := by
  unfold clampVolume
  split
  · next h => simp [h]
  · next h => simp [h]

/-- A side cannot be opened if the volume bounds are not in order. -/
theorem opening?_eq_error_iff : opening? d tick o data side = .error .volumeBounds ↔
    ¬ data.settings.minVol ≤ data.settings.maxVol := by
  unfold opening?
  simp only
  rw [Except.bind_eq_error, clampVolume_eq_error_iff]
  constructor
  · rintro (h | ⟨vol, -, h⟩)
    · exact h
    · cases h
  · exact Or.inl

theorem normalDeal?_eq_error_iff : normalDeal? d tick o data p opens side = .error .volumeBounds ↔
    (side.pick p).amount ≤ 0.0 ∧ o.signal data.settings.signalTimeframe = side.openSignal ∧
      opens < data.settings.openLimit ∧ ¬ data.settings.minVol ≤ data.settings.maxVol := by
  unfold normalDeal?
  simp only
  split
  · next hheld =>
    split
    · next hmay => simp [opening?_eq_error_iff, hheld, hmay.1, hmay.2]
    · next hmay =>
      simp only [reduceCtorEq, false_iff]
      exact fun ⟨_, hsignal, hcount, _⟩ ↦ hmay ⟨hsignal, hcount⟩
  · next hheld =>
    split <;> simp [hheld]

theorem target_ofSides_eq_error_iff {target : ModeName} {x y : Except Fault (Option Deal)} :
    (Decision.ofSides target x y).target = .error .volumeBounds ↔
      x = .error .volumeBounds ∨ y = .error .volumeBounds := by
  cases x with
  | error f =>
    cases f
    simp [Decision.ofSides]
  | ok long =>
    cases y with
    | error f =>
      cases f
      simp [Decision.ofSides]
    | ok short => simp [Decision.ofSides]

/-- A decision ends in a fault just where normal mode would open a side while the volume bounds are
not in order. -/
theorem target_eq_error_iff : (m.decision d tick o data).target = .error .volumeBounds ↔
    ∃ (n : UInt32) (p : Position) (side : Side), m = .normal n ∧ data.tally.limitReached = false ∧
      o.validPosition? = some p ∧ ¬ o.balance < data.settings.minVol ∧
      (side.pick p).amount ≤ 0.0 ∧ o.signal data.settings.signalTimeframe = side.openSignal ∧
      n < data.settings.openLimit ∧ ¬ data.settings.minVol ≤ data.settings.maxVol := by
  cases m with
  | normal opens =>
    simp only [ModeState.decision, ModeState.normalDecision]
    constructor
    · intro h
      split at h
      · cases h
      · next hlimit =>
        split at h
        · cases h
        · next p hp =>
          split at h
          · cases h
          · next hbalance =>
            cases target_ofSides_eq_error_iff.mp h with
            | inl h =>
              exact ⟨opens, p, .long, rfl, Bool.eq_false_iff.mpr hlimit, hp, hbalance,
                normalDeal?_eq_error_iff.mp h⟩
            | inr h =>
              exact ⟨opens, p, .short, rfl, Bool.eq_false_iff.mpr hlimit, hp, hbalance,
                normalDeal?_eq_error_iff.mp h⟩
    · rintro ⟨n, p, side, hm, hlimit, hp, hbalance, hside⟩
      cases hm
      have hdeal : normalDeal? d tick o data p opens side = .error .volumeBounds :=
        normalDeal?_eq_error_iff.mpr hside
      simp only [hlimit, hp, hbalance, Bool.false_eq_true, if_false]
      apply target_ofSides_eq_error_iff.mpr
      cases side with
      | long => exact Or.inl hdeal
      | short => exact Or.inr hdeal
  | defense =>
    simp only [ModeState.decision, ModeState.defenseDecision, reduceCtorEq, false_and, exists_false,
      iff_false]
    split
    · simp
    · split <;> simp [Decision.ofSides]
  | shutdown since shutdowns => simp [ModeState.decision]

end Mavg

end TradeDesk
