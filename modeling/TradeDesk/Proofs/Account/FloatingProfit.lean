import TradeDesk.Mavg.Modes
import TradeDesk.Proofs.Account.Upkeep

/-!
# Floating profit

The floating profit of a position is computed anew on each tick of its instrument, from what is held
and the last price alone. So it has no memory: after any ticks it is what the last of them makes of
the position, whatever profits there were before, and nothing else in the ledger has changed.
-/

namespace TradeDesk

open Mavg (Side)

namespace Trader

/-- The floating profit of a side, and its rate on the margin, at the last price of a symbol: it is
computed from the contracts held, what one of them cost, and the margin that they bind. -/
def profit (t : Trader) (symbol : String) (last : Float) (side : Side)
    (amount cost bond : Float) : Float × Float :=
  match t.faceValue? symbol with
  | none => (0.0, 0.0)
  | some face =>
    if last ≤ 0.0 || amount ≤ 0.0 || cost ≤ 0.0 || bond ≤ 0.0 then (0.0, 0.0)
    else
      let perContract :=
        match side with
        | .long => face / cost - face / last
        | .short => face / last - face / cost
      (perContract * amount, perContract * amount / bond)

/-- A side with its floating profit at the last price, whatever profit it had. -/
def revalue (t : Trader) (symbol : String) (last : Float) (side : Side) (s : PositionSide) :
    PositionSide :=
  let x := t.profit symbol last side s.amount s.priceCost s.bond
  { s with floatProfit := x.1, floatProfitRate := x.2 }

variable {t : Trader} {last face : Float}

private theorem floatSide_eq {symbol : String} (hface : t.faceValue? symbol = some face)
    (hlast : ¬ last ≤ 0.0) (side : Side) (s : PositionSide) :
    floatSide (fun cost ↦
      match side with
      | .long => face / cost - face / last
      | .short => face / last - face / cost) s = t.revalue symbol last side s := by
  unfold floatSide revalue profit
  simp only [hface, hlast, decide_false, Bool.false_or]
  split
  · rfl
  · rfl

/-- The floating profit of a position does not depend on the profit that it had. -/
theorem floatProfit_eq (t : Trader) (p : Position) (last : Float) :
    t.floatProfit p last =
      { p with
        long := t.revalue p.key.symbol last .long p.long
        short := t.revalue p.key.symbol last .short p.short } := by
  unfold floatProfit
  cases hface : t.faceValue? p.key.symbol with
  | none => simp only [revalue, profit, hface, sideAtRest]
  | some face =>
    by_cases hlast : last ≤ 0.0
    · simp only [revalue, profit, hface, hlast, sideAtRest, if_true, decide_true, Bool.true_or]
    · rw [← floatSide_eq hface hlast .long, ← floatSide_eq hface hlast .short]
      simp only [hlast, if_false]

/-- There is no profit of a symbol without a face value or a positive price, and none of a side that
holds nothing, cost nothing or binds no margin. -/
theorem profit_eq_zero {symbol : String} {amount cost bond : Float} (side : Side)
    (h : t.faceValue? symbol = none ∨ last ≤ 0.0 ∨ amount ≤ 0.0 ∨ cost ≤ 0.0 ∨ bond ≤ 0.0) :
    t.profit symbol last side amount cost bond = (0.0, 0.0) := by
  unfold profit
  cases hface : t.faceValue? symbol with
  | none => rfl
  | some face =>
    have hnone : ¬ some face = none := nofun
    simp only [hface, hnone, false_or] at h
    apply if_pos
    simpa only [Bool.or_eq_true, decide_eq_true_eq, or_assoc] using h

end Trader

/-- A position without its floating profits. -/
def Position.atRest (p : Position) : Position :=
  { p with long := Trader.sideAtRest p.long, short := Trader.sideAtRest p.short }

namespace Trader

/-- Nothing but the floating profits of a position is computed. -/
theorem atRest_floatProfit (t : Trader) (p : Position) (last : Float) :
    (t.floatProfit p last).atRest = p.atRest := by
  rw [floatProfit_eq]
  rfl

/-- They are computed from everything else. -/
theorem floatProfit_atRest (t : Trader) (p : Position) (last : Float) :
    t.floatProfit p.atRest last = t.floatProfit p last := by
  rw [floatProfit_eq, floatProfit_eq]
  rfl

/-- Each side is valued by itself. -/
theorem pick_floatProfit (t : Trader) (p : Position) (last : Float) (side : Side) :
    side.pick (t.floatProfit p last) = t.revalue p.key.symbol last side (side.pick p) := by
  rw [floatProfit_eq]
  cases side with
  | long => rfl
  | short => rfl

/-- Of two valuations the later counts. -/
theorem floatProfit_floatProfit (t : Trader) (p : Position) (earlier last : Float) :
    t.floatProfit (t.floatProfit p earlier) last = t.floatProfit p last := by
  rw [← floatProfit_atRest, atRest_floatProfit, floatProfit_atRest]

/-- Where all but the floating profits is the same, valuation makes the same of it. -/
theorem map_floatProfit_congr (t : Trader) {o o' : Option Position} (last : Float)
    (h : o.map Position.atRest = o'.map Position.atRest) :
    o.map (fun p => t.floatProfit p last) = o'.map fun p => t.floatProfit p last := by
  have hrest (o : Option Position) : o.map (fun p => t.floatProfit p last) =
      (o.map Position.atRest).map fun p => t.floatProfit p last := by
    simp only [Option.map_map, Function.comp_def, floatProfit_atRest]
  rw [hrest, h, ← hrest]

end Trader

/-! ### A ledger under ticks -/

namespace Ledger

/-- Two ledgers that differ at most in the floating profits of positions. -/
structure SameAtRest (k k' : Ledger) : Prop where
  orders_eq : k.orders = k'.orders
  money_eq : k.money = k'.money
  pending_eq : k.pending = k'.pending
  positions_eq : ∀ key,
    (k.positions.get? key).map Position.atRest = (k'.positions.get? key).map Position.atRest

/-- A ledger after ticks that one trader values positions on. -/
def repriceAll (k : Ledger) (t : Trader) (ticks : List Tick) : Ledger :=
  ticks.foldl (fun k tick => k.reprice tick (some t)) k

/-- The last of ticks for an instrument. -/
def lastTick? (ticks : List Tick) (key : Instrument) : Option Tick :=
  ticks.reverse.find? fun tick => tick.key = key

variable {k k' k'' : Ledger}

theorem SameAtRest.trans (h : k.SameAtRest k') (h' : k'.SameAtRest k'') : k.SameAtRest k'' where
  orders_eq := h.orders_eq.trans h'.orders_eq
  money_eq := h.money_eq.trans h'.money_eq
  pending_eq := h.pending_eq.trans h'.pending_eq
  positions_eq key := (h.positions_eq key).trans (h'.positions_eq key)

/-- A tick values the position of its instrument, if there is one. -/
theorem get?_reprice (k : Ledger) (tick : Tick) (t : Trader) (key : Instrument) :
    (k.reprice tick (some t)).positions.get? key =
      if tick.key = key then (k.positions.get? key).map fun p => t.floatProfit p tick.last
      else k.positions.get? key := by
  show (k.positions.modify tick.key _).get? key = _
  rw [Table.get?_modify]
  by_cases h : tick.key = key
  · rw [if_pos h.symm, if_pos h, h]
  · rw [if_neg (Ne.symm h), if_neg h]

/-- A tick changes floating profits alone. -/
theorem sameAtRest_reprice (k : Ledger) (tick : Tick) (t : Trader) :
    k.SameAtRest (k.reprice tick (some t)) where
  orders_eq := rfl
  money_eq := rfl
  pending_eq := rfl
  positions_eq key := by
    rw [get?_reprice]
    split
    · rw [Option.map_map]
      congr 1
      funext p
      exact (t.atRest_floatProfit p tick.last).symm
    · rfl

/-- A tick that comes again changes nothing. -/
theorem reprice_reprice (k : Ledger) (tick : Tick) (t : Trader) :
    (k.reprice tick (some t)).reprice tick (some t) = k.reprice tick (some t) := by
  simp only [reprice]
  rw [Table.modify_modify]
  exact fun p ↦ t.floatProfit_floatProfit p tick.last tick.last

/-- Ticks change floating profits alone. -/
theorem sameAtRest_repriceAll (k : Ledger) (t : Trader) (ticks : List Tick) :
    k.SameAtRest (k.repriceAll t ticks) := by
  induction ticks generalizing k with
  | nil => exact ⟨rfl, rfl, rfl, fun _ ↦ rfl⟩
  | cons tick rest ih => exact (k.sameAtRest_reprice tick t).trans (ih _)

/-- After ticks a position has the profit that the last tick for its instrument gives it. -/
theorem get?_repriceAll (k : Ledger) (t : Trader) (ticks : List Tick) (key : Instrument) :
    (k.repriceAll t ticks).positions.get? key =
      match lastTick? ticks key with
      | some tick => (k.positions.get? key).map fun p => t.floatProfit p tick.last
      | none => k.positions.get? key := by
  induction ticks generalizing k with
  | nil => rfl
  | cons tick rest ih =>
    have hlast : lastTick? (tick :: rest) key =
        (lastTick? rest key).or (if tick.key = key then some tick else none) := by
      simp [lastTick?, List.find?_append]
    have hrest := ih (k.reprice tick (some t))
    rw [get?_reprice] at hrest
    rw [hlast]
    refine hrest.trans ?_
    cases lastTick? rest key with
    | none => by_cases h : tick.key = key <;> simp [h]
    | some later =>
      by_cases h : tick.key = key
      · simp [h, Function.comp_def, Trader.floatProfit_floatProfit]
      · simp [h]

/-- The last of ticks for an instrument is for it. -/
theorem key_of_lastTick? {ticks : List Tick} {key : Instrument} {tick : Tick}
    (h : lastTick? ticks key = some tick) : tick.key = key :=
  of_decide_eq_true (List.find?_some (p := fun tick : Tick ↦ decide (tick.key = key)) h)

/-- Without ticks for an instrument there is no last one. -/
theorem lastTick?_eq_none {ticks : List Tick} {key : Instrument}
    (h : ∀ tick ∈ ticks, tick.key ≠ key) : lastTick? ticks key = none := by
  rw [lastTick?, List.find?_eq_none]
  intro tick htick hkey
  exact h tick (List.mem_reverse.mp htick) (of_decide_eq_true hkey)

/-- Ticks that one trader values positions on change nothing in a ledger but floating profits, each
tick those of the position of its instrument alone, and a tick that comes again changes nothing. After
all of them a position whose instrument had none is as it was. Any other has the profits that the last
tick for its instrument gives it, also if that tick comes alone to a ledger with other profits. They
are computed from what each side holds; where the symbol has no face value or the price is not positive
they are zero, and so are those of a side that holds nothing, cost nothing or binds no margin. -/
theorem profits_of_ticks (k : Ledger) (t : Trader) (ticks : List Tick) :
    let k' := k.repriceAll t ticks
    (∀ tick,
      let once := k.reprice tick (some t)
      k.SameAtRest once ∧
        (∀ key, key ≠ tick.key → once.positions.get? key = k.positions.get? key) ∧
        once.reprice tick (some t) = once) ∧
    k.SameAtRest k' ∧
    (∀ key, (∀ tick ∈ ticks, tick.key ≠ key) → k'.positions.get? key = k.positions.get? key) ∧
    ∀ key tick, lastTick? ticks key = some tick →
      (∀ earlier : Ledger,
        (earlier.positions.get? key).map Position.atRest =
            (k.positions.get? key).map Position.atRest →
          (earlier.reprice tick (some t)).positions.get? key = k'.positions.get? key) ∧
      ∀ p, k'.positions.get? key = some p → ∀ side : Side,
        let s := side.pick p
        (s.floatProfit, s.floatProfitRate) =
            t.profit p.key.symbol tick.last side s.amount s.priceCost s.bond ∧
          (t.faceValue? p.key.symbol = none ∨ tick.last ≤ 0.0 ∨ s.amount ≤ 0.0 ∨
              s.priceCost ≤ 0.0 ∨ s.bond ≤ 0.0 →
            s.floatProfit = 0.0 ∧ s.floatProfitRate = 0.0) := by
  intro k'
  refine ⟨fun tick ↦ ⟨k.sameAtRest_reprice tick t, fun key hkey ↦ ?_, k.reprice_reprice tick t⟩,
    k.sameAtRest_repriceAll t ticks, fun key hnone ↦ ?_, fun key tick hlast ↦ ⟨?_, ?_⟩⟩
  · rw [get?_reprice, if_neg (Ne.symm hkey)]
  · rw [get?_repriceAll, lastTick?_eq_none hnone]
  · intro earlier hearlier
    rw [get?_repriceAll, hlast, get?_reprice, if_pos (key_of_lastTick? hlast)]
    exact t.map_floatProfit_congr tick.last hearlier
  · intro p hp side s
    rw [get?_repriceAll, hlast] at hp
    obtain ⟨p₀, -, rfl⟩ := Option.map_eq_some_iff.mp hp
    have hside : s = t.revalue p₀.key.symbol tick.last side (side.pick p₀) :=
      t.pick_floatProfit p₀ tick.last side
    have hprofit : (s.floatProfit, s.floatProfitRate) =
        t.profit p₀.key.symbol tick.last side s.amount s.priceCost s.bond := by
      rw [hside]
      rfl
    rw [key_floatProfit]
    refine ⟨hprofit, fun hzero ↦ ?_⟩
    rw [Trader.profit_eq_zero side hzero] at hprofit
    exact Prod.mk.inj hprofit

end Ledger

end TradeDesk
