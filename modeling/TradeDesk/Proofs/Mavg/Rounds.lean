import TradeDesk.Proofs.Mavg.Cooldown
import TradeDesk.Proofs.Mavg.Discipline

/-!
# Rounds of the moving-average strategy

A run of the strategy is told round by round: which of its deals the desk accepted on a tick, and
which mode it was in before and after. What the strategy remembers between two ticks (its tally, the
openings of normal mode, the times it was shut down) is told by the rounds alone.
-/

namespace TradeDesk

/-- Whether an order opens a side. The others close one. -/
def OrderType.isOpening : OrderType → Bool
  | openLong | openShort => true
  | closeLong | closeShort => false

namespace Desk

/-- Orders that were accepted one after another: each was given a serial. -/
inductive Accepts (strategy : String) : Desk → List OrderCommand → Desk → Prop where
  | none (d : Desk) : Accepts strategy d [] d
  | order {d d₁ d' : Desk} {c : OrderCommand} {serial : UInt32} {cs : List OrderCommand}
    (placed : d.placeOrder strategy c = (some serial, d₁)) (rest : Accepts strategy d₁ cs d') :
    Accepts strategy d (c :: cs) d'

end Desk

namespace Mavg

namespace Deal

/-- An opening. -/
def isOpening : Deal → Bool
  | opening _ => true
  | closing _ _ => false

/-- The deals for which there is a trader. -/
def accepted (d : Desk) (deals : List Deal) : List Deal :=
  deals.filter fun deal ↦ (d.traders.get? deal.command.key.exchange).isSome

variable (x : Desk × Data) (deal : Deal) (deals : List Deal)

theorem accepted_cons (d : Desk) :
    accepted d (deal :: deals) =
      if (d.traders.get? deal.command.key.exchange).isSome then deal :: accepted d deals
      else accepted d deals := List.filter_cons

/-- A deal that is carried out leaves open which others are accepted. -/
theorem accepted_carry : accepted (carry x deal).1 deals = accepted x.1 deals := by
  simp only [accepted, traders_carry]

/-- The orders of those deals are the ones that are accepted, and nothing else is done. -/
theorem accepts_carryAll :
    x.1.Accepts strategyName ((accepted x.1 deals).map command) (carryAll deals x).1 := by
  induction deals generalizing x with
  | nil => exact .none x.1
  | cons deal rest ih =>
    have hrest := ih (carry x deal)
    rw [accepted_carry] at hrest
    have hdesk : (carry x deal).1 = (x.1.placeOrder strategyName deal.command).2 := by
      rw [carry_eq]
    rw [accepted_cons]
    split
    · next ht =>
      rw [← x.1.isSome_placeOrder strategyName] at ht
      obtain ⟨serial, hserial⟩ := Option.isSome_iff_exists.mp ht
      exact .order (Prod.ext hserial hdesk.symm) hrest
    · next ht =>
      have hsame : (carry x deal).1 = x.1 := by
        rw [hdesk, Desk.placeOrder, Desk.request, Option.not_isSome_iff_eq_none.mp ht]
      rw [hsame] at hrest
      exact hrest

/-- Of what the strategy keeps, deals change the tally alone, which notes those accepted. -/
theorem snd_carryAll :
    (carryAll deals x).2 = { x.2 with tally := (accepted x.1 deals).foldl note x.2.tally } := by
  induction deals generalizing x with
  | nil => rfl
  | cons deal rest ih =>
    have hrest := ih (carry x deal)
    rw [accepted_carry] at hrest
    refine hrest.trans ?_
    rw [carry_eq, accepted_cons]
    dsimp only
    split
    · rfl
    · rfl

/-- The openings counted are those among the deals. -/
theorem foldl_count (deals : List Deal) (opens : UInt32) :
    deals.foldl count opens = opens + UInt32.ofNat (deals.countP isOpening) := by
  induction deals generalizing opens with
  | nil => simp
  | cons deal rest ih =>
    rw [List.foldl_cons, ih]
    cases deal with
    | opening c =>
      rw [List.countP_cons_of_pos rfl, count, UInt32.ofNat_add, UInt32.add_assoc,
        UInt32.add_comm (UInt32.ofNat _)]
      rfl
    | closing c profit => rw [List.countP_cons_of_neg Bool.false_ne_true, count]

end Deal

/-- What one tick came to. -/
structure Round where
  /-- The deals whose orders the desk accepted, in turn. -/
  deals : List Deal
  /-- The modes before and after the tick. -/
  source : ModeName
  target : ModeName

namespace Round

/-- The machine turned to a mode. -/
def enters (r : Round) (i : ModeName) : Bool := decide (r.source ≠ i ∧ r.target = i)

end Round

/-- The deals of rounds. -/
def dealsOf (rounds : List Round) : List Deal := rounds.flatMap Round.deals

/-- The orders that the desk accepted in rounds. -/
def ordersOf (rounds : List Round) : List OrderCommand := (dealsOf rounds).map Deal.command

/-- Of rounds, the newest first, those since the machine last turned to a mode. -/
def since (i : ModeName) (rounds : List Round) : List Round := rounds.takeWhile fun r ↦ !r.enters i

@[simp] theorem dealsOf_nil : dealsOf [] = [] := rfl

@[simp] theorem dealsOf_cons (r : Round) (rounds : List Round) :
    dealsOf (r :: rounds) = r.deals ++ dealsOf rounds := List.flatMap_cons

theorem since_cons (i : ModeName) (r : Round) (rounds : List Round) :
    since i (r :: rounds) = if r.enters i then [] else r :: since i rounds := by
  rw [since, List.takeWhile_cons]
  cases r.enters i <;> rfl

theorem sublist_since (i : ModeName) (rounds : List Round) : (since i rounds).Sublist rounds :=
  List.takeWhile_sublist _

variable {m m' : StrategyMachine} {d d' : Desk} {tick : Tick}

/-- An opening is ordered as one, and a closing is not. -/
theorem Wants.isOpening_command {mode : ModeState} {o : Outlook} {data : Data} {p : Position}
    {side : Side} {deal : Deal} (h : Wants mode d tick o data p side deal) :
    deal.command.orderType.isOpening = deal.isOpening := by
  cases h with
  | opening => cases side <;> rfl
  | closing => cases side <;> rfl

/-! ### One step of the machine -/

/-- The deals of a step are noted; a machine that shuts down raises the limit after that. -/
theorem Stepped.tally_eq (h : Stepped m d tick m' d') (hm : Named m) :
    m'.data.tally =
      if m.current ≠ .shutdown ∧ m'.current = .shutdown then
        ((Deal.accepted d (decided m d tick).deals).foldl Deal.note m.data.tally).raiseLimit
      else (Deal.accepted d (decided m d tick).deals).foldl Deal.note m.data.tally := by
  by_cases hcurrent : m'.current = m.current
  · have hstays : ¬ (m.current ≠ .shutdown ∧ m'.current = .shutdown) :=
      fun hturns ↦ hturns.1 (hcurrent.symm.trans hturns.2)
    rw [if_neg hstays, (h.stays hcurrent).1, Deal.snd_carryAll]
  · rw [(h.turns hcurrent).1, Deal.snd_carryAll]
    by_cases hshut : m'.current = .shutdown
    · obtain ⟨since, shutdowns, hbefore⟩ := eq_shutdown_of_name (hm .shutdown)
      have hrun : m.current ≠ .shutdown := fun hrun ↦ hcurrent (hshut.trans hrun.symm)
      rw [if_pos ⟨hrun, hshut⟩, hshut, hbefore]
      rfl
    · have hname : (m.mode m'.current).name ≠ .shutdown := by
        rw [hm]
        exact hshut
      rw [if_neg fun hturns ↦ hshut hturns.2, data_enter hname]

/-- A mode that the machine turns to is entered; the current mode counts its openings. -/
theorem Stepped.mode_eq (h : Stepped m d tick m' d') (i : ModeName) :
    m'.mode i =
      if m.current ≠ i ∧ m'.current = i then
        (Mode.enter (m.mode i) d' (Deal.carryAll (decided m d tick).deals (d, m.data)).2).1
      else if m.current = i then (m.mode i).after (decided m d tick).deals
      else m.mode i := by
  by_cases hcurrent : m'.current = m.current
  · rw [(h.stays hcurrent).2 i]
    grind
  · rw [(h.turns hcurrent).2 i]
    grind

/-- What is opened has a trader, so no opening that is wanted is refused. -/
theorem countP_isOpening_accepted (m : StrategyMachine) (d : Desk) (tick : Tick) :
    (Deal.accepted d (decided m d tick).deals).countP Deal.isOpening =
      (decided m d tick).deals.countP Deal.isOpening := by
  rw [Deal.accepted, List.countP_filter]
  refine List.countP_congr fun deal hdeal ↦ ?_
  obtain ⟨-, -, p, side, -, hwants⟩ := wants_of_mem_deals hdeal
  cases hwants with
  | opening mode held signal count bounds size =>
    have htrader := Desk.isSome_of_contractAmount? size
    simp [Deal.isOpening, Deal.command, openCommand, htrader]
  | closing => simp [Deal.isOpening]

/-- Only normal mode opens. -/
theorem countP_isOpening_eq_zero (hm : Named m) (hcurrent : m.current ≠ .normal) (d : Desk)
    (tick : Tick) : (decided m d tick).deals.countP Deal.isOpening = 0 := by
  refine List.countP_eq_zero.mpr fun deal hdeal hopening ↦ ?_
  obtain ⟨-, -, p, side, -, hwants⟩ := wants_of_mem_deals hdeal
  cases hwants with
  | opening mode =>
    apply hcurrent
    rw [← hm m.current, mode]
    rfl
  | closing => exact Bool.false_ne_true hopening

/-- Normal mode counts its openings, anew from where the machine turns to it. -/
theorem Stepped.normal_eq {opens : UInt32} (h : Stepped m d tick m' d') (hm : Named m)
    (hopens : m.mode .normal = .normal opens) :
    m'.mode .normal = .normal
      (if m.current ≠ .normal ∧ m'.current = .normal then 0
        else opens + UInt32.ofNat
          ((Deal.accepted d (decided m d tick).deals).countP Deal.isOpening)) := by
  rw [h.mode_eq, hopens, countP_isOpening_accepted]
  split
  · rfl
  · split
    · rw [ModeState.after, Deal.foldl_count]
    · next hcurrent =>
      rw [countP_isOpening_eq_zero hm hcurrent]
      simp

/-- A shutdown notes its time and is counted. -/
theorem Stepped.shutdown_eq {since : Int64} {shutdowns : UInt32} (h : Stepped m d tick m' d')
    (hbefore : m.mode .shutdown = .shutdown since shutdowns) :
    m'.mode .shutdown =
      if m.current ≠ .shutdown ∧ m'.current = .shutdown then .shutdown m.data.clock (shutdowns + 1)
      else .shutdown since shutdowns := by
  rw [h.mode_eq, hbefore]
  split
  · rw [Deal.snd_carryAll]
    rfl
  · exact ite_self _

end Mavg

namespace MavgStrategy

open Mavg

variable {s s' : MavgStrategy} {d d' : Desk} {tick : Tick} {deal : Deal}

/-- The deals of the strategy on a tick whose orders the desk accepts, in turn. -/
def dealsOn (s : MavgStrategy) (d : Desk) (tick : Tick) : List Deal :=
  if s.follows.contains tick.key then Deal.accepted d (decided (s.clocked tick) d tick).deals
  else []

/-- What a tick came to that left the strategy as `s'`. -/
def round (s : MavgStrategy) (d : Desk) (tick : Tick) (s' : MavgStrategy) : Round :=
  ⟨s.dealsOn d tick, s.machine.current, s'.machine.current⟩

/-- The strategy after ticks, each of which may find the desk in any state, and what they came to.
Ticks and rounds stand with the newest first. -/
def history (s : MavgStrategy) : List (Desk × Tick) → Except Fault (List Round × MavgStrategy)
  | [] => .ok ([], s)
  | x :: earlier => do
    let (rounds, s) ← s.history earlier
    let (s', _) ← s.onTick x.1 x.2
    return (s.round x.1 x.2 s' :: rounds, s')

/-! ### One tick -/

theorem dealsOn_of_followed (hfollowed : s.follows.contains tick.key = true) (d : Desk) :
    s.dealsOn d tick = Deal.accepted d (decided (s.clocked tick) d tick).deals :=
  if_pos hfollowed

theorem dealsOn_of_other (hother : s.follows.contains tick.key = false) (d : Desk) :
    s.dealsOn d tick = [] := if_neg (Bool.eq_false_iff.mp hother)

/-- On a tick the desk accepts the orders of the strategy's deals, and nothing else is done to it. -/
theorem accepts_dealsOn (h : s.onTick d tick = .ok (s', d')) :
    d.Accepts strategyName ((s.dealsOn d tick).map Deal.command) d' := by
  rcases onTick_eq_ok h with ⟨hother, -, rfl⟩ | ⟨hfollowed, -, hstep⟩
  · rw [dealsOn_of_other hother]
    exact .none d'
  · rw [dealsOn_of_followed hfollowed, hstep.desk_eq]
    exact Deal.accepts_carryAll (d, (s.clocked tick).data) _

/-- The orders of a round are those that the desk accepted, and nothing else was done to it. -/
theorem accepts_round (h : s.onTick d tick = .ok (s', d')) :
    d.Accepts strategyName (ordersOf [s.round d tick s']) d' := by
  rw [ordersOf, dealsOf_cons, dealsOf_nil, List.append_nil]
  exact accepts_dealsOn h

/-- A deal is on a followed instrument, before there are too many losses, and as the current mode
wants it about a side. -/
theorem of_mem_dealsOn (h : deal ∈ s.dealsOn d tick) :
    s.follows.contains tick.key = true ∧ s.tally.limitReached = false ∧
      ∃ o p side, o.key = tick.key ∧
        Wants (s.machine.mode s.machine.current) d tick o (s.clocked tick).data p side deal := by
  cases hfollowed : s.follows.contains tick.key with
  | false =>
    rw [dealsOn_of_other hfollowed] at h
    cases h
  | true =>
    rw [dealsOn_of_followed hfollowed] at h
    obtain ⟨hlimit, -, p, side, -, hwants⟩ := wants_of_mem_deals (List.mem_filter.mp h).1
    exact ⟨rfl, hlimit, _, p, side, key_seen (s.clocked tick) d tick, hwants⟩

theorem length_dealsOn_le (s : MavgStrategy) (d : Desk) (tick : Tick) :
    (s.dealsOn d tick).length ≤ 2 := by
  have hwanted := length_orders_le ((s.clocked tick).mode (s.clocked tick).current) d tick
    (seen (s.clocked tick) d tick) (s.clocked tick).data
  rw [ModeState.orders, List.length_map] at hwanted
  unfold dealsOn
  split
  · exact Nat.le_trans (List.length_filter_le _ _) hwanted
  · exact Nat.zero_le 2

/-- The tally notes the deals of a tick, and the limit is raised where the strategy shuts down. -/
theorem tally_onTick (hs : Named s.machine) (h : s.onTick d tick = .ok (s', d')) :
    s'.tally =
      if (s.round d tick s').enters .shutdown then
        ((s.dealsOn d tick).foldl Deal.note s.tally).raiseLimit
      else (s.dealsOn d tick).foldl Deal.note s.tally := by
  simp only [Round.enters, decide_eq_true_eq]
  rcases onTick_eq_ok h with ⟨hother, rfl, -⟩ | ⟨hfollowed, -, hstep⟩
  · rw [dealsOn_of_other hother, if_neg fun hturns ↦ hturns.1 hturns.2]
    rfl
  · rw [dealsOn_of_followed hfollowed]
    exact hstep.tally_eq hs

/-- Normal mode counts the openings of a tick, anew from where the strategy turns to it. -/
theorem normal_onTick {opens : UInt32} (hs : Named s.machine)
    (h : s.onTick d tick = .ok (s', d')) (hopens : s.machine.mode .normal = .normal opens) :
    s'.machine.mode .normal = .normal
      (if (s.round d tick s').enters .normal then 0
        else opens + UInt32.ofNat ((s.dealsOn d tick).countP Deal.isOpening)) := by
  simp only [Round.enters, decide_eq_true_eq]
  rcases onTick_eq_ok h with ⟨hother, rfl, -⟩ | ⟨hfollowed, -, hstep⟩
  · rw [dealsOn_of_other hother, if_neg fun hturns ↦ hturns.1 hturns.2, hopens, List.countP_nil]
    simp
  · rw [dealsOn_of_followed hfollowed]
    exact hstep.normal_eq hs hopens

/-- A shutdown notes its time and is counted. -/
theorem shutdown_onTick {since : Int64} {shutdowns : UInt32} (h : s.onTick d tick = .ok (s', d'))
    (hbefore : s.machine.mode .shutdown = .shutdown since shutdowns) :
    s'.machine.mode .shutdown =
      if (s.round d tick s').enters .shutdown then .shutdown tick.seconds (shutdowns + 1)
      else .shutdown since shutdowns := by
  simp only [Round.enters, decide_eq_true_eq]
  rcases onTick_eq_ok h with ⟨-, rfl, -⟩ | ⟨-, -, hstep⟩
  · rw [if_neg fun hturns ↦ hturns.1 hturns.2, hbefore]
  · exact hstep.shutdown_eq hbefore

/-! ### Runs -/

variable {s₀ : MavgStrategy} {settings : MavgSettings} {follows : List Instrument}
  {ticks : List (Desk × Tick)} {rounds : List Round}

/-- A run ends with a tick after a shorter run. -/
theorem history_cons_eq_ok {x : Desk × Tick} :
    s₀.history (x :: ticks) = .ok (rounds, s') ↔
      ∃ earlier s d', s₀.history ticks = .ok (earlier, s) ∧ s.onTick x.1 x.2 = .ok (s', d') ∧
        rounds = s.round x.1 x.2 s' :: earlier := by
  rw [history, Except.bind_eq_ok]
  constructor
  · rintro ⟨⟨earlier, s⟩, hearlier, h⟩
    obtain ⟨⟨s₁, d'⟩, htick, h⟩ := Except.bind_eq_ok.mp h
    cases h
    exact ⟨earlier, s, d', hearlier, htick, rfl⟩
  · rintro ⟨earlier, s, d', hearlier, htick, rfl⟩
    exact ⟨(earlier, s), hearlier, Except.bind_eq_ok.mpr ⟨(s', d'), htick, rfl⟩⟩

theorem Steady.history (h₀ : s₀.Steady settings follows)
    (h : s₀.history ticks = .ok (rounds, s)) : s.Steady settings follows := by
  induction ticks generalizing rounds s with
  | nil =>
    cases h
    exact h₀
  | cons x ticks ih =>
    obtain ⟨earlier, s₁, d', hearlier, htick, -⟩ := history_cons_eq_ok.mp h
    exact (ih hearlier).onTick htick

/-- Every deal is on a symbol of the settings, and its order is of its kind. -/
theorem of_mem_dealsOf (h₀ : ofSettings settings = .ok s₀)
    (h : s₀.history ticks = .ok (rounds, s)) (hdeal : deal ∈ dealsOf rounds) :
    deal.command.key.symbol ∈ settings.symbols ∧
      deal.command.orderType.isOpening = deal.isOpening := by
  induction ticks generalizing rounds s with
  | nil =>
    cases h
    cases hdeal
  | cons x ticks ih =>
    obtain ⟨earlier, s₁, d', hearlier, htick, rfl⟩ := history_cons_eq_ok.mp h
    rw [dealsOf_cons, List.mem_append] at hdeal
    cases hdeal with
    | inr hdeal => exact ih hearlier hdeal
    | inl hdeal =>
      obtain ⟨hfollowed, -, o, p, side, hkey, hwants⟩ := of_mem_dealsOn hdeal
      rw [((steady_ofSettings h₀).history hearlier).follows_eq, (ofSettings_eq_ok h₀).2.2,
        List.contains_iff_mem, List.mem_flatMap] at hfollowed
      obtain ⟨symbol, hsymbol, hfollowed⟩ := hfollowed
      obtain ⟨contract, -, hx⟩ := List.mem_map.mp hfollowed
      refine ⟨?_, hwants.isOpening_command⟩
      rw [hwants.key_eq, hkey, ← hx]
      exact hsymbol

/-- The orders of a run that open a side are those of its openings. -/
theorem countP_ordersOf (h₀ : ofSettings settings = .ok s₀)
    (h : s₀.history ticks = .ok (rounds, s)) {some : List Round} (hsome : some.Sublist rounds) :
    (ordersOf some).countP (·.orderType.isOpening) = (dealsOf some).countP Deal.isOpening := by
  rw [ordersOf, List.countP_map]
  refine List.countP_congr fun deal hdeal ↦ ?_
  obtain ⟨r, hr, hdeal⟩ := List.mem_flatMap.mp hdeal
  have hproper := of_mem_dealsOf h₀ h (List.mem_flatMap.mpr ⟨r, hsome.subset hr, hdeal⟩)
  rw [Function.comp_apply, hproper.2]

end MavgStrategy

end TradeDesk
