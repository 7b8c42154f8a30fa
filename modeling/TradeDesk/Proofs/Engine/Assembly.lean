import TradeDesk.Engine
import TradeDesk.Proofs.Settings.Acceptance
import TradeDesk.Proofs.Strategy.Assembly

/-!
# Assembled engines

Settings that can be used assemble: with a trader for each exchange there is an engine, and it
serves the configured exchanges, aggregates the timeframes that they list, and has the configured
strategy. With other traders, what is reported is what is wrong with the first that serves an exchange
which is not configured or already served.
-/

namespace TradeDesk

/-! ### Aggregated timeframes -/

theorem BarSeries.fst_add_ne_untracked (s : BarSeries) (c : Candle) :
    (s.add c).1 ≠ .untracked := by
  unfold add
  split
  · simp only
    split
    · nofun
    · split
      · nofun
      · nofun
  · nofun

/-- A sample is passed over as untracked exactly if its timeframe is not aggregated. -/
theorem Bars.fst_add_ne_untracked_iff {b : Bars} {key : Instrument} {tf : Timeframe} {c : Candle} :
    (b.add key tf c).1 ≠ .untracked ↔ tf ∈ b.timeframes := by
  unfold add
  split
  · next h => exact iff_of_true (BarSeries.fst_add_ne_untracked _ c) (List.contains_iff_mem.mp h)
  · next h => exact iff_of_false (not_not.mpr rfl) fun hmem ↦ h (List.contains_iff_mem.mpr hmem)

/-! ### Traders -/

namespace Engine

variable {σ : Type} {s : Settings} {t : Trader} {traders earlier : List Trader} {seen : List String}
  {e e' : DeskError}

/-- What is wrong with a trader after others: it serves an exchange that is not configured, or else
one that another serves. -/
inductive Unfit (s : Settings) (earlier : List Trader) (t : Trader) : DeskError → Prop where
  | unknown (h : ∀ x ∈ s.exchanges, x.name ≠ t.exchange) :
    Unfit s earlier t (.unknownExchange t.exchange)
  | twice (hknown : ∃ x ∈ s.exchanges, x.name = t.exchange)
      (h : t.exchange ∈ earlier.map (·.exchange)) :
    Unfit s earlier t (.invalidRegistration (.traderTwice t.exchange))

/-- With a trader at most one thing is wrong. -/
theorem Unfit.unique (h : Unfit s earlier t e) (h' : Unfit s earlier t e') : e' = e := by
  cases h with
  | unknown h =>
    cases h' with
    | unknown => rfl
    | twice hknown =>
      obtain ⟨x, hx, hname⟩ := hknown
      exact absurd hname (h x hx)
  | twice hknown =>
    cases h' with
    | unknown h =>
      obtain ⟨x, hx, hname⟩ := hknown
      exact absurd hname (h x hx)
    | twice => rfl

/-- Something is wrong with a trader exactly if it serves an exchange that is not configured or
already served. -/
theorem exists_unfit_iff :
    (∃ e, Unfit s earlier t e) ↔
      (∀ x ∈ s.exchanges, x.name ≠ t.exchange) ∨ t.exchange ∈ earlier.map (·.exchange) := by
  constructor
  · rintro ⟨e, h | ⟨-, h⟩⟩
    · exact Or.inl h
    · exact Or.inr h
  · intro h
    by_cases hknown : ∀ x ∈ s.exchanges, x.name ≠ t.exchange
    · exact ⟨_, .unknown hknown⟩
    · have hserved := h.resolve_left hknown
      push Not at hknown
      exact ⟨_, .twice hknown hserved⟩

/-- Traders are fit when each serves a configured exchange and no two the same. -/
theorem faultless_unfit_iff :
    Faultless (Unfit s) traders ↔
      (∀ t ∈ traders, ∃ x ∈ s.exchanges, x.name = t.exchange) ∧
        (traders.map (·.exchange)).Nodup := by
  induction traders using List.reverseRecOn with
  | nil => exact iff_of_true faultless_nil ⟨nofun, List.nodup_nil⟩
  | append_singleton traders t ih =>
    have hfit : (∀ e, ¬ Unfit s traders t e) ↔
        (∃ x ∈ s.exchanges, x.name = t.exchange) ∧ t.exchange ∉ traders.map (·.exchange) := by
      rw [← not_exists, exists_unfit_iff]
      push Not
      rfl
    rw [faultless_concat, ih, hfit, List.map_append, List.map_singleton, nodup_concat_iff,
      List.forall_mem_append, List.forall_mem_singleton]
    exact and_and_and_comm

/-- Traders are looked at from the front, and the first that is unfit is reported. -/
private theorem checkTraders_from (hseen : ∀ name, name ∈ seen ↔ name ∈ earlier.map (·.exchange))
    (hearlier : Faultless (Unfit s) earlier) :
    (∀ e, checkTraders s seen traders = .error e → FirstFault (Unfit s) (earlier ++ traders) e) ∧
      (checkTraders s seen traders = .ok () → Faultless (Unfit s) (earlier ++ traders)) := by
  induction traders generalizing seen earlier with
  | nil =>
    rw [List.append_nil]
    exact ⟨nofun, fun _ ↦ hearlier⟩
  | cons t rest ih =>
    have hfound : (s.exchange? t.exchange).isNone = true ↔
        ∀ x ∈ s.exchanges, x.name ≠ t.exchange := by
      rw [← Option.not_isSome, Bool.not_eq_true', ← Bool.not_eq_true, Settings.isSome_exchange?_iff]
      push Not
      rfl
    unfold checkTraders
    split
    · next hnone =>
      refine ⟨fun e he ↦ ?_, nofun⟩
      cases he
      exact ⟨earlier, t, rest, rfl, hearlier, .unknown (hfound.mp hnone)⟩
    · next hsome =>
      rw [hfound] at hsome
      have hknown : ∃ x ∈ s.exchanges, x.name = t.exchange := by
        push Not at hsome
        exact hsome
      split
      · next htwice =>
        rw [List.contains_iff_mem, hseen] at htwice
        refine ⟨fun e he ↦ ?_, nofun⟩
        cases he
        exact ⟨earlier, t, rest, rfl, hearlier, .twice hknown htwice⟩
      · next hnew =>
        rw [List.contains_iff_mem, hseen] at hnew
        have hfit : ∀ e, ¬ Unfit s earlier t e := fun e he ↦
          (exists_unfit_iff.mp ⟨e, he⟩).elim hsome hnew
        have hseen' (name : String) :
            name ∈ t.exchange :: seen ↔ name ∈ (earlier ++ [t]).map (·.exchange) := by
          simp [hseen, or_comm]
        have hrest := ih hseen' (faultless_concat.mpr ⟨hearlier, hfit⟩)
        rw [List.append_assoc, List.singleton_append] at hrest
        exact hrest

/-- What is reported is what is wrong with the first trader that is unfit. -/
theorem checkTraders_eq_error_iff :
    checkTraders s [] traders = .error e ↔ FirstFault (Unfit s) traders e := by
  obtain ⟨herror, hok⟩ : (∀ e, checkTraders s [] traders = .error e →
      FirstFault (Unfit s) traders e) ∧
        (checkTraders s [] traders = .ok () → Faultless (Unfit s) traders) :=
    checkTraders_from (fun name ↦ Iff.rfl) faultless_nil
  refine ⟨herror e, fun h ↦ ?_⟩
  cases hcheck : checkTraders s [] traders with
  | ok u => exact absurd (hok hcheck) h.not_faultless
  | error e' =>
    obtain ⟨before, t, he, he'⟩ := h.same_place (herror e' hcheck)
    rw [he.unique he']

/-- With settings that can be used, only the traders may be unfit. -/
theorem assemble_eq_error_iff (hs : s.validate = .ok ()) :
    (assemble s traders : Except DeskError (Engine σ)) = .error e ↔
      FirstFault (Unfit s) traders e := by
  rw [← checkTraders_eq_error_iff, assemble, hs, Except.ok_bind, Except.bind_eq_error]
  refine or_iff_left ?_
  rintro ⟨u, -, h⟩
  cases h

/-- Traders that are fit assemble. -/
theorem assemble_eq_ok (hs : s.validate = .ok ()) (h : Faultless (Unfit s) traders) :
    (assemble s traders : Except DeskError (Engine σ)) =
      .ok ⟨.ofTraders traders (.empty s.timeframes s.ringCapacity.toNat) s.maxChecks, .empty⟩ := by
  cases hcheck : checkTraders s [] traders with
  | error e => exact absurd h (checkTraders_eq_error_iff.mp hcheck).not_faultless
  | ok u =>
    rw [assemble, hs, Except.ok_bind, hcheck]
    rfl

end Engine

/-! ### Settings that can be used -/

namespace Settings

variable {s : Settings} {m : MavgSettings}

theorem map_exchange_traders (s : Settings) :
    s.traders.map (·.exchange) = s.exchanges.map (·.name) := by
  simp [traders]

/-- One trader for each exchange is fit. -/
theorem faultless_traders (hs : s.validate = .ok ()) : Faultless (Engine.Unfit s) s.traders := by
  refine Engine.faultless_unfit_iff.mpr ⟨fun t ht ↦ ?_, ?_⟩
  · obtain ⟨x, hx, rfl⟩ := List.mem_map.mp ht
    exact ⟨x, hx, rfl⟩
  · rw [map_exchange_traders]
    exact nodup_names hs

/-- The desk of settings has the trader of each exchange. -/
theorem get?_traders (hs : s.validate = .ok ()) (bars : Bars) (maxChecks : UInt32) (name : String) :
    (Desk.ofTraders s.traders bars maxChecks).traders.get? name =
      (s.exchange? name).map fun x ↦ ⟨x.name, x.faceValues⟩ := by
  have hkeys : ((s.traders.map fun t ↦ (t.exchange, t)).map Prod.fst).Nodup := by
    rw [List.map_map]
    exact (map_exchange_traders s).symm ▸ nodup_names hs
  rw [Desk.ofTraders, Table.get?_eq_find?, Table.entries_ofList hkeys, traders, List.map_map,
    List.find?_map, Option.map_map, exchange?]
  rfl

/-- What settings make an engine of: a trader for each exchange, bars for the timeframes that some
exchange lists, and the strategy that is configured. -/
structure Equips (s : Settings) (e : Engine MavgStrategy) : Prop where
  trader_eq (name : String) :
    e.desk.traders.get? name = (s.exchange? name).map fun x ↦ ⟨x.name, x.faceValues⟩
  served_iff (name : String) :
    (e.desk.traders.get? name).isSome ↔ ∃ x ∈ s.exchanges, x.name = name
  tracked_iff (key : Instrument) (tf : Timeframe) (c : Candle) :
    (e.desk.bars.add key tf c).1 ≠ .untracked ↔ ∃ x ∈ s.exchanges, tf ∈ x.timeframes
  unconfigured (hm : s.mavg = none) : e.registry.strategies = []
  configured (m : MavgSettings) (hm : s.mavg = some m) :
    (∀ key c, (e.desk.bars.add key m.signalTimeframe c).1 ≠ .untracked) ∧
      ∃ strategy, MavgStrategy.ofSettings m = .ok strategy ∧ e.registry.strategies = [strategy]

end Settings

/-- The moving-average strategy comes about from any settings. -/
theorem MavgStrategy.exists_ofSettings (m : MavgSettings) :
    ∃ strategy, MavgStrategy.ofSettings m = .ok strategy := by
  obtain ⟨machine, hmachine⟩ := (Blueprint.exists_build_iff Mavg.strategyName
    (Mavg.registrations m) (Mavg.Data.start m)).mpr (Mavg.complete_registrations m)
  rw [← Mavg.blueprint_eq] at hmachine
  exact ⟨_, Except.bind_eq_ok.mpr ⟨machine, hmachine, rfl⟩⟩

namespace Settings

variable {s : Settings}

/-- With a trader for each exchange there is an engine with all that settings configure. -/
theorem exists_engine (hs : s.validate = .ok ()) : ∃ e, s.engine = .ok e ∧ s.Equips e := by
  have hassemble : (Engine.assemble s s.traders : Except DeskError (Engine MavgStrategy)) = _ :=
    Engine.assemble_eq_ok hs (faultless_traders hs)
  have htrader := get?_traders hs (.empty s.timeframes s.ringCapacity.toNat) s.maxChecks
  have hserved (name : String) :
      ((s.exchange? name).map fun x ↦ (⟨x.name, x.faceValues⟩ : Trader)).isSome ↔
        ∃ x ∈ s.exchanges, x.name = name := by
    rw [Option.isSome_map, isSome_exchange?_iff]
  have htracked (key : Instrument) (tf : Timeframe) (c : Candle) :
      ((Bars.empty s.timeframes s.ringCapacity.toNat).add key tf c).1 ≠ .untracked ↔
        ∃ x ∈ s.exchanges, tf ∈ x.timeframes :=
    Bars.fst_add_ne_untracked_iff.trans mem_timeframes_iff
  rw [engine, hassemble, Except.ok_bind]
  cases hm : s.mavg with
  | none =>
    refine ⟨_, rfl, htrader, fun name ↦ htrader name ▸ hserved name, htracked, fun _ ↦ rfl, ?_⟩
    intro m hm'
    rw [hm] at hm'
    cases hm'
  | some m =>
    obtain ⟨strategy, hstrategy⟩ := MavgStrategy.exists_ofSettings m
    refine ⟨⟨_, ⟨[strategy]⟩⟩, ?_, htrader, fun name ↦ htrader name ▸ hserved name, htracked,
      ?_, ?_⟩
    · simp only [hstrategy, Except.ok_bind]
      rfl
    · intro hm'
      rw [hm] at hm'
      cases hm'
    · intro m' hm'
      rw [hm] at hm'
      cases hm'
      obtain ⟨x, hx, -, htf⟩ := exists_signalExchange hs hm
      exact ⟨fun key c ↦ (htracked key _ c).mpr ⟨x, hx, htf⟩, strategy, hstrategy, rfl⟩

/-- Settings that can be used assemble: with a trader for each exchange there is an engine with all
that they configure, and with any traders what is reported is what is wrong with the first of them
that is unfit. -/
theorem assembles (hs : s.validate = .ok ()) :
    (∃ e, s.engine = .ok e ∧ s.Equips e) ∧
      ∀ (σ : Type) (traders : List Trader),
        ((∃ err, (Engine.assemble s traders : Except DeskError (Engine σ)) = .error err) ↔
          ∃ earlier t later, traders = earlier ++ t :: later ∧
            ((∀ x ∈ s.exchanges, x.name ≠ t.exchange) ∨
              t.exchange ∈ earlier.map (·.exchange))) ∧
        ∀ err, (Engine.assemble s traders : Except DeskError (Engine σ)) = .error err ↔
          FirstFault (Engine.Unfit s) traders err := by
  refine ⟨exists_engine hs, fun σ traders ↦ ⟨?_, fun err ↦ Engine.assemble_eq_error_iff hs⟩⟩
  simp only [Engine.assemble_eq_error_iff hs, exists_firstFault_iff, Engine.exists_unfit_iff]

/-- The standard settings with the strategy assemble, but not with two traders for one exchange. -/
theorem standard_assembles_once :
    let s : Settings := { Settings.standard with mavg := some {} }
    let okex : Trader := ⟨"okex", .empty⟩
    s.validate = .ok () ∧ (∃ e, s.engine = .ok e ∧ s.Equips e) ∧
      (Engine.assemble s [okex, okex, ⟨"unknown", .empty⟩] :
        Except DeskError (Engine MavgStrategy)) =
          .error (.invalidRegistration (.traderTwice "okex")) := by
  intro s okex
  have hs : s.validate = .ok () := rfl
  obtain ⟨hengine, htraders⟩ := assembles hs
  refine ⟨hs, hengine, ((htraders MavgStrategy _).2 _).mpr ?_⟩
  have hokex : ∃ x ∈ s.exchanges, x.name = okex.exchange :=
    ⟨.standard, List.mem_singleton.mpr rfl, rfl⟩
  have hfirst : Faultless (Engine.Unfit s) [okex] :=
    Engine.faultless_unfit_iff.mpr ⟨List.forall_mem_singleton.mpr hokex, List.nodup_singleton _⟩
  exact ⟨[okex], okex, [⟨"unknown", .empty⟩], rfl, hfirst, .twice hokex List.mem_cons_self⟩

end Settings

end TradeDesk
