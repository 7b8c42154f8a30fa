import TradeDesk.Engine
import TradeDesk.Proofs.Mavg.Discipline
import TradeDesk.Proofs.Number.Floor
import TradeDesk.Proofs.Settings.Acceptance

/-!
# How much is ordered

An opening is sized in two steps: a share of the balance is held between the volume bounds, and the
trader turns that volume into contracts. Neither step expects what is not a number. Bounds that are
not numbers pass for being in order where settings are checked, and there the sizing fails; a
quotient that is not a number passes for one contract at least, and there nothing is ordered.
-/

namespace TradeDesk

/-! ### Bounds -/

namespace Settings

variable {s : Settings} {m : MavgSettings}

/-- Settings that can be used have no volume bounds that are the wrong way round. -/
theorem not_maxVol_lt_minVol (hs : s.validate = .ok ()) (hm : s.mavg = some m) :
    ¬ m.maxVol < m.minVol := by
  intro h
  have hcheck := checkMavg_of_validate hs hm
  unfold checkMavg at hcheck
  split at hcheck
  · cases hcheck
  · split at hcheck
    · cases hcheck
    · cases hcheck

/-- The volume bounds of settings that can be used are in order if both are numbers. -/
theorem minVol_le_maxVol_iff (hs : s.validate = .ok ()) (hm : s.mavg = some m) :
    m.minVol ≤ m.maxVol ↔ m.minVol.isNaN = false ∧ m.maxVol.isNaN = false := by
  rw [Binary64.le_iff_not_lt]
  simp [not_maxVol_lt_minVol hs hm]

end Settings

namespace Mavg

/-- An outlook on an instrument of which nothing is held, with a signal to buy. -/
def buying (key : Instrument) (tf : Timeframe) (balance : Float) : Outlook where
  key := key
  position := some (.flat key)
  balance := balance
  signals := Table.empty.insert tf .buy

/-- Under settings that can be used, the volume bounds are in order just when both are numbers. Under
such bounds every mode decides on every tick; under others a new strategy that may open and lose at
all fails on the first signal to buy. -/
theorem decides_iff_bounds_numbers {s : Settings} {m : MavgSettings} (hs : s.validate = .ok ())
    (hm : s.mavg = some m) :
    (m.minVol ≤ m.maxVol ↔ m.minVol.isNaN = false ∧ m.maxVol.isNaN = false) ∧
      (m.minVol.isNaN = false ∧ m.maxVol.isNaN = false →
        ∀ (mode : ModeState) (d : Desk) (tick : Tick) (o : Outlook) (data : Data),
          data.settings = m → ∃ r, Mode.decide mode d tick o data = .ok r) ∧
      (¬ (m.minVol.isNaN = false ∧ m.maxVol.isNaN = false) →
        0 < m.openLimit → 0 < m.lossLimitStep →
        ∀ (d : Desk) (tick : Tick) (key : Instrument) (balance : Float), ¬ balance < m.minVol →
          Mode.decide (ModeState.normal 0) d tick (buying key m.signalTimeframe balance)
            (.start m) = .error .volumeBounds) := by
  have hbounds := Settings.minVol_le_maxVol_iff hs hm
  refine ⟨hbounds, fun hnum mode d tick o data hdata ↦ ?_, fun hnum hopen hlose d tick key balance
    hbalance ↦ ?_⟩
  · cases hr : Mode.decide mode d tick o data with
    | ok r => exact ⟨r, rfl⟩
    | error f =>
      cases f
      rw [decide_eq, Decision.carryOut, Except.map_eq_error] at hr
      obtain ⟨n, p, side, -, -, -, -, -, -, -, hle⟩ := target_eq_error_iff.mp hr
      rw [hdata] at hle
      exact absurd (hbounds.mpr hnum) hle
  · rw [decide_eq, Decision.carryOut, Except.map_eq_error, target_eq_error_iff]
    refine ⟨0, .flat key, .long, rfl, ?_, rfl, hbalance, ?_, ?_, hopen,
      fun hle ↦ hnum (hbounds.mp hle)⟩
    · exact decide_eq_false (UInt32.not_le.mpr hlose)
    · show (0.0 : Float) ≤ 0.0
      decide
    · simp [buying, Outlook.signal, Data.start, Side.openSignal]

/-- Under the standard bounds every mode decides on every tick. -/
theorem decides_of_standard_bounds :
    { Settings.standard with mavg := some {} }.validate = .ok () ∧
      ∀ (mode : ModeState) (d : Desk) (tick : Tick) (o : Outlook) (data : Data),
        data.settings = {} → ∃ r, Mode.decide mode d tick o data = .ok r :=
  have hs : { Settings.standard with mavg := some {} }.validate = .ok () := rfl
  ⟨hs, (decides_iff_bounds_numbers hs rfl).2.1 (by decide +kernel)⟩

/-- Settings whose greatest volume is not a number can be used, and the strategy fails under them on
a signal to buy. -/
theorem decide_error_of_maxVol_nan :
    let m : MavgSettings := { maxVol := 0.0 / 0.0 }
    let s : Settings := { Settings.standard with mavg := some m }
    let key : Instrument := ⟨"okex", "ltc_usd", "this_week"⟩
    let d := Desk.ofTraders s.traders (.empty s.timeframes 30) s.maxChecks
    let tick : Tick := ⟨key, 1000, 0.0, 0.0, 0.0, 0.0, 0.0, 0.0, 90.0, 0.0, 0.0, 0.0, 0.0⟩
    s.validate = .ok () ∧
      Mode.decide (ModeState.normal 0) d tick (buying key .min5 20.0) (.start m) =
        .error .volumeBounds :=
  ⟨rfl, rfl⟩

end Mavg

/-! ### Contracts -/

/-- What a trader sizes is one contract at least, unless the quotient is not a number. -/
theorem Trader.one_le_contractAmount?_iff {t : Trader} {symbol : String} {price vol : Float}
    {n : Int64} (h : t.contractAmount? symbol price vol = some n) :
    1 ≤ n ↔ ∀ face ∈ t.faceValue? symbol, (price * vol / face).isNaN = false := by
  unfold contractAmount? at h
  cases hface : t.faceValue? symbol with
  | none => simp [hface] at h
  | some face =>
    rw [hface] at h
    simp only [Option.bind_eq_bind, Option.bind_some] at h
    split at h
    · cases h
    · next hone =>
      cases h
      simp only [Option.mem_def, Option.some.injEq, forall_eq']
      cases hnan : (price * vol / face).isNaN with
      | false => simp [Binary64.one_le_floorWord hnan hone]
      | true =>
        rw [Binary64.floorWord_eq_zero hnan]
        decide

namespace Desk

/-- The face value of a contract, as the exchange's trader knows it. -/
def faceValue? (d : Desk) (exchange symbol : String) : Option Float :=
  (d.traders.get? exchange).bind fun t ↦ t.faceValue? symbol

theorem one_le_contractAmount?_iff {d : Desk} {exchange symbol : String} {price vol : Float}
    {n : Int64} (h : d.contractAmount? exchange symbol price vol = some n) :
    1 ≤ n ↔ ∀ face ∈ d.faceValue? exchange symbol, (price * vol / face).isNaN = false := by
  obtain ⟨t, ht, hn⟩ := Option.bind_eq_some_iff.mp h
  rw [faceValue?, ht]
  exact Trader.one_le_contractAmount?_iff hn

end Desk

namespace Mavg

variable {m : ModeState} {d : Desk} {tick : Tick} {o : Outlook} {data : Data} {p : Position}
  {side : Side} {deal : Deal}

theorem Wants.one_le_amount_iff (h : Wants m d tick o data p side deal) :
    1 ≤ deal.command.amount ↔ ∀ side : Side, deal.command.orderType = side.openType →
      ∀ face ∈ d.faceValue? deal.command.key.exchange deal.command.key.symbol,
        (tick.last * deal.command.vol / face).isNaN = false := by
  cases h with
  | opening _ _ _ _ _ size =>
    refine (Desk.one_le_contractAmount?_iff size).trans ⟨fun h _ _ ↦ h, fun h ↦ h _ rfl⟩
  | closing _ _ _ size =>
    have hone : 1 ≤ Binary64.floorWord (side.pick p).available := by
      have hzero : (0 : Int64).toInt = 0 := rfl
      have hunit : (1 : Int64).toInt = 1 := rfl
      have hpos := Int64.lt_iff_toInt_lt.mp size
      rw [Int64.le_iff_toInt_le]
      omega
    exact ⟨fun _ t ht ↦ absurd ht.symm (Side.openType_ne_closeType t side), fun _ ↦ hone⟩

/-- A trader sizes, and a mode places on any desk, nothing but orders of one contract at least,
except for openings whose quotient of the volume's price by the face value is not a number. -/
theorem one_le_amount_orders_iff (m : ModeState) (d : Desk) (tick : Tick) (o : Outlook) (data : Data) :
    (∀ (t : Trader) (symbol : String) (price vol : Float) (n : Int64),
        t.contractAmount? symbol price vol = some n →
          (1 ≤ n ↔ ∀ face ∈ t.faceValue? symbol, (price * vol / face).isNaN = false)) ∧
      (Mode.decide m d tick o data).map (·.2.2.1) =
        (m.decision d tick o data).target.map
          (fun _ ↦ d.placeAll strategyName (m.orders d tick o data)) ∧
      ∀ c ∈ m.orders d tick o data,
        1 ≤ c.amount ↔ ∀ side : Side, c.orderType = side.openType →
          ∀ face ∈ d.faceValue? c.key.exchange c.key.symbol,
            (tick.last * c.vol / face).isNaN = false := by
  refine ⟨fun t symbol price vol n h ↦ Trader.one_le_contractAmount?_iff h,
    desk_decide m d tick o data, fun c hc ↦ ?_⟩
  obtain ⟨-, -, p, side, deal, -, hdeal, rfl⟩ := wants_of_mem_orders hc
  exact hdeal.one_le_amount_iff

/-- Where a face value is zero, of a symbol that only the strategy names, and so is the price, an
order of no contracts goes out. -/
theorem orders_amount_zero :
    let m : MavgSettings := { symbols := ["etc_usd"] }
    let e : ExchangeSettings := ⟨"okex", ["ltc_usd"], ["this_week"], [.min5],
      .ofList [("ltc_usd", 10.0), ("etc_usd", 0.0)]⟩
    let s : Settings := { Settings.standard with exchanges := [e], mavg := some m }
    let key : Instrument := ⟨"okex", "etc_usd", "this_week"⟩
    let d := Desk.ofTraders s.traders (.empty s.timeframes 30) s.maxChecks
    let tick : Tick := ⟨key, 1000, 0.0, 0.0, 0.0, 0.0, 0.0, 0.0, 0.0, 0.0, 0.0, 0.0, 0.0⟩
    s.validate = .ok () ∧
      ((ModeState.normal 0).orders d tick (buying key .min5 20.0) (.start m)).map
        (fun c ↦ (c.orderType, c.amount)) = [(.openLong, 0)] :=
  ⟨rfl, by decide +kernel⟩

end Mavg

end TradeDesk
