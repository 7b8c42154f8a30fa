import TradeDesk.Mavg.Strategy
import TradeDesk.Proofs.Strategy.Calls
import TradeDesk.Proofs.Strategy.Registration

/-!
# Assembled machines

When registrations make a machine, what is reported when they do not, and how a machine that comes
about behaves on every tick from then on: its modes and observers are those that were registered, and
the mode that is to be next is always there.
-/

namespace TradeDesk

variable {ι μ ο δ : Type} [DecidableEq ι]

namespace Registration

variable [ModeId ι] [Mode μ ι δ] [Observer ο]

/-- Registrations that make a machine. -/
structure Complete (rs : List (Registration ι μ ο)) : Prop where
  ids_nodup : (ids rs).Nodup
  names_nonempty : "" ∉ names rs
  names_nodup : (names rs).Nodup
  exists_initial : ∃ i, .initial i ∈ rs
  all_registered : ∀ i ∈ ModeId.all (ι := ι), i ∈ ids rs

/-- What is wrong with registrations: what is wrong with the first that goes wrong; else that there
is no mode to start in; else that an identifier has no mode, the first such in the list of all. -/
inductive Refused (name : String) (rs : List (Registration ι μ ο)) : DeskError → Prop where
  | registration {e : DeskError} (h : FirstFault Offends rs e) : Refused name rs e
  | noInitial (h : Faultless Offends rs) (hinitial : ∀ i, .initial i ∉ rs) :
    Refused name rs (.noInitialState name)
  | missing {before after : List ι} {i : ι} (h : Faultless Offends rs)
      (hinitial : ∃ i, .initial i ∈ rs) (hall : ModeId.all = before ++ i :: after)
      (hbefore : ∀ j ∈ before, j ∈ ids rs) (hi : i ∉ ids rs) :
    Refused name rs (.missingState (ModeId.label i))

end Registration

namespace Machine

variable [Mode μ ι δ] [Observer ο]

open Registration in
/-- A machine that registrations make, with none of its modes initialized. -/
structure Blank (name : String) (rs : List (Registration ι μ ο)) (data : δ)
    (m : Machine ι μ ο δ) : Prop where
  name_eq : m.name = name
  entries_eq : m.modes.entries = (rs.filterMap mode?).map fun mode ↦ (Mode.id mode, mode)
  observers_eq : m.observers = rs.filterMap observer?
  /-- Of several modes to start in the last counts. -/
  current_eq : (rs.filterMap initial?).getLast? = some m.current
  data_eq : m.data = data

open Registration in
/-- A machine with the modes and observers that are registered, each tick of which is a script of
calls: every observer is called once in order on a fresh outlook, the current mode decides once, and
the mode that is to be next is entered once if it is another, and that switch is the answer. -/
structure Runs (rs : List (Registration ι μ ο)) (m : Machine ι μ ο δ) : Prop where
  keys_eq : m.modes.keys = ids rs
  length_observers : m.observers.length = (rs.filterMap observer?).length
  current_registered : m.current ∈ ids rs
  step_eq_ok_iff (d : Desk) (tick : Tick) (moved : Option (ι × ι)) (m' : Machine ι μ ο δ)
      (d' : Desk) :
    m.step d tick = .ok (moved, m', d') ↔
      ∃ target ∈ ids rs, calls tick { machine := m, desk := d } (m.script target) =
          .ok ⟨m', d', some target⟩ ∧
        m'.current = target ∧
        moved = if target = m.current then none else some (m.current, target)
  step_eq_error_iff (d : Desk) (tick : Tick) (f : Fault) :
    m.step d tick = .error f ↔ calls tick { machine := m, desk := d } m.asks = .error f

/-- The machines that a machine becomes through ticks, while its owner may change its data. -/
inductive Reaches (m : Machine ι μ ο δ) : Machine ι μ ο δ → Prop where
  | refl : Reaches m m
  | step {m' m'' : Machine ι μ ο δ} {d d' : Desk} {tick : Tick} {moved : Option (ι × ι)}
      (h : Reaches m m') (hstep : m'.step d tick = .ok (moved, m'', d')) : Reaches m m''
  | setData {m' : Machine ι μ ο δ} (h : Reaches m m') (data : δ) :
    Reaches m { m' with data := data }

omit [Observer ο] in
/-- Modes are initialized one after another. -/
theorem foldl_initMode (m : Machine ι μ ο δ) (order : List ι) :
    order.foldl initMode m =
      { m with
        modes := (Blueprint.initModes m.modes m.data order).1
        data := (Blueprint.initModes m.modes m.data order).2
        complete := fun i ↦ Blueprint.isSome_get?_initModes _ _ _ i (m.complete i) } := by
  induction order generalizing m with
  | nil => rfl
  | cons i rest ih =>
    have hget : m.modes.get? i = some (m.mode i) := (Option.some_get (m.complete i)).symm
    rw [List.foldl_cons, ih]
    simp only [Blueprint.initModes, hget]
    rfl

omit [Observer ο] in
theorem keys_foldl_initMode (m : Machine ι μ ο δ) (order : List ι) :
    (order.foldl initMode m).modes.keys = m.modes.keys := by
  induction order generalizing m with
  | nil => rfl
  | cons i rest ih =>
    rw [List.foldl_cons, ih]
    exact m.keys_setMode i _

/-- Ticks neither add a mode or an observer nor lose one. -/
theorem Reaches.kept {m m' : Machine ι μ ο δ} (h : m.Reaches m') :
    m'.modes.keys = m.modes.keys ∧ m'.observers.length = m.observers.length := by
  induction h with
  | refl => exact ⟨rfl, rfl⟩
  | step h hstep ih =>
    obtain ⟨hkeys, hlength⟩ := kept_of_step hstep
    exact ⟨hkeys.trans ih.1, hlength.trans ih.2⟩
  | setData h data ih => exact ih

/-- After a tick the current mode is the one that was decided on. -/
theorem current_of_calls_script {m m' : Machine ι μ ο δ} {d d' : Desk} {tick : Tick} {target : ι}
    (h : calls tick { machine := m, desk := d } (m.script target) = .ok ⟨m', d', some target⟩) :
    m'.current = target := by
  rw [script, calls_append, calls_asks] at h
  cases hdecision : m.decision d tick with
  | error f =>
    rw [hdecision, Except.error_bind, Except.error_bind] at h
    cases h
  | ok decided =>
    obtain ⟨target', mode, d₁, data⟩ := decided
    rw [hdecision, Except.ok_bind, Except.ok_bind] at h
    split at h
    · next hstay =>
      cases h
      exact hstay.symm
    · next hne =>
      cases h
      rfl

theorem runs_of_keys {rs : List (Registration ι μ ο)} {m : Machine ι μ ο δ}
    (hkeys : m.modes.keys = Registration.ids rs)
    (hlength : m.observers.length = (rs.filterMap Registration.observer?).length) : Runs rs m where
  keys_eq := hkeys
  length_observers := hlength
  current_registered := hkeys ▸ m.mem_keys m.current
  step_eq_ok_iff d tick moved m' d' := by
    rw [Machine.step_eq_ok_iff]
    constructor
    · rintro ⟨target, hcalls, hmoved⟩
      exact ⟨target, hkeys ▸ m.mem_keys target, hcalls, current_of_calls_script hcalls, hmoved⟩
    · rintro ⟨target, -, hcalls, -, hmoved⟩
      exact ⟨target, hcalls, hmoved⟩
  step_eq_error_iff d tick f := Machine.step_eq_error_iff

end Machine

namespace Blueprint

open Registration

section build

variable [ModeId ι] [Mode μ ι δ] {b : Blueprint ι μ ο} {data : δ} {e : DeskError}

theorem build_of_error (h : b.error = some e) :
    (b.build data : Except DeskError (Machine ι μ ο δ)) = .error e := by
  simp only [build, h]

theorem build_of_no_initial (herror : b.error = none) (h : b.initial = none) :
    (b.build data : Except DeskError (Machine ι μ ο δ)) = .error (.noInitialState b.name) := by
  simp only [build, herror, h]

theorem build_of_missing {start : ι} (herror : b.error = none) (hstart : b.initial = some start)
    {before after : List ι} {i : ι} (hall : ModeId.all = before ++ i :: after)
    (hbefore : ∀ j ∈ before, j ∈ b.modes.keys) (hi : i ∉ b.modes.keys) :
    (b.build data : Except DeskError (Machine ι μ ο δ)) =
      .error (.missingState (ModeId.label i)) := by
  have hfind : (ModeId.all (ι := ι)).find? (fun i ↦ (b.modes.get? i).isNone) = some i := by
    refine List.find?_eq_some_iff_append.mpr
      ⟨Table.isNone_get?_iff.mpr hi, before, after, hall, fun j hj ↦ ?_⟩
    rw [Bool.not_eq_true', ← Bool.not_eq_true, Table.isNone_get?_iff, not_not]
    exact hbefore j hj
  simp only [build, herror, hstart]
  split
  · next hsome =>
    rw [hfind] at hsome
    cases hsome
    rfl
  · next hnone =>
    rw [hfind] at hnone
    cases hnone

/-- When nothing is wrong, every mode is initialized. -/
theorem build_of_complete {start : ι} (herror : b.error = none) (hstart : b.initial = some start)
    (hall : ∀ i, (b.modes.get? i).isSome) :
    (b.build data : Except DeskError (Machine ι μ ο δ)) =
      .ok (b.modes.keys.foldl Machine.initMode
        { name := b.name, modes := b.modes, observers := b.observers, current := start,
          outlook := .start ⟨"", "", ""⟩, data := data, complete := hall }) := by
  simp only [build, herror, hstart, Machine.foldl_initMode]
  split
  · next i hsome =>
    have hi : (b.modes.get? i).isNone :=
      List.find?_some (p := fun i ↦ (b.modes.get? i).isNone) hsome
    exact absurd (hall i) (Option.not_isSome_iff_eq_none.mpr (Option.isNone_iff_eq_none.mp hi))
  · rfl

end build

variable [ModeId ι] [Mode μ ι δ] [Observer ο] {name : String} {rs : List (Registration ι μ ο)}
  {data : δ} {e : DeskError}

omit [DecidableEq ι] [ModeId ι] [Mode μ ι δ] [Observer ο] in
private theorem getLast?_initials_eq_none_iff :
    (rs.filterMap initial?).getLast? = none ↔ ∀ i, .initial i ∉ rs := by
  rw [List.getLast?_eq_none_iff, List.filterMap_eq_nil_iff]
  constructor
  · intro h i hi
    cases h _ hi
  · intro h r hr
    cases r with
    | mode m => rfl
    | observer o => rfl
    | initial i => exact absurd hr (h i)

/-- Registrations make a machine, or something is wrong with them. -/
private theorem complete_or_refused (name : String) (rs : List (Registration ι μ ο)) :
    Complete rs ∨ ∃ e, Refused name rs e := by
  by_cases hfaultless : Faultless Offends rs
  · by_cases hinitial : ∃ i, .initial i ∈ rs
    · cases hfind : (ModeId.all (ι := ι)).find? (fun i ↦ i ∉ ids rs) with
      | none =>
        obtain ⟨hids, hempty, hnames⟩ := faultless_offends_iff.mp hfaultless
        refine Or.inl ⟨hids, hempty, hnames, hinitial, fun i hi ↦ ?_⟩
        simpa using List.find?_eq_none.mp hfind i hi
      | some i =>
        obtain ⟨hi, before, after, hall, hbefore⟩ := List.find?_eq_some_iff_append.mp hfind
        refine Or.inr ⟨_, .missing hfaultless hinitial hall (fun j hj ↦ ?_) (by simpa using hi)⟩
        simpa using hbefore j hj
    · exact Or.inr ⟨_, .noInitial hfaultless (not_exists.mp hinitial)⟩
  · rw [faultless_iff, not_forall_not] at hfaultless
    obtain ⟨e, he⟩ := hfaultless
    exact Or.inr ⟨e, .registration he⟩

/-- Complete registrations make a machine whose modes are all initialized, each once. -/
theorem build_ofRegistrations_of_complete (name : String) (data : δ) (h : Complete rs) :
    ∃ blank : Machine ι μ ο δ, blank.Blank name rs data ∧
      (ofRegistrations name rs).build data = .ok ((ids rs).foldl Machine.initMode blank) := by
  have hholds : (ofRegistrations name rs).Holds rs := holds_ofRegistrations
    (faultless_offends_iff.mpr ⟨h.ids_nodup, h.names_nonempty, h.names_nodup⟩)
  have hall (i : ι) : ((ofRegistrations name rs).modes.get? i).isSome :=
    hholds.contains_iff.mpr (h.all_registered i (ModeId.mem_all i))
  cases hstart : (rs.filterMap initial?).getLast? with
  | none =>
    obtain ⟨i, hi⟩ := h.exists_initial
    exact absurd hi (getLast?_initials_eq_none_iff.mp hstart i)
  | some start =>
    refine ⟨_, ?_, hholds.keys_eq ▸
      build_of_complete hholds.error_eq (initial_ofRegistrations.trans hstart) hall⟩
    exact ⟨name_ofRegistrations, hholds.entries_eq, hholds.observers_eq, hstart, rfl⟩

theorem build_ofRegistrations_of_refused (data : δ) (h : Refused name rs e) :
    ((ofRegistrations name rs).build data : Except DeskError (Machine ι μ ο δ)) = .error e := by
  cases h with
  | registration h => exact build_of_error (error_ofRegistrations.mpr h)
  | noInitial h hinitial =>
    have hnone : (ofRegistrations name rs).initial = none :=
      initial_ofRegistrations.trans (getLast?_initials_eq_none_iff.mpr hinitial)
    rw [build_of_no_initial (holds_ofRegistrations h).error_eq hnone, name_ofRegistrations]
  | missing h hinitial hall hbefore hi =>
    have hholds : (ofRegistrations name rs).Holds rs := holds_ofRegistrations h
    obtain ⟨start, hstart⟩ : ∃ start, (rs.filterMap initial?).getLast? = some start := by
      rw [← Option.ne_none_iff_exists', Ne, getLast?_initials_eq_none_iff]
      exact not_forall_not.mpr hinitial
    exact build_of_missing hholds.error_eq (initial_ofRegistrations.trans hstart) hall
      (fun j hj ↦ hholds.keys_eq ▸ hbefore j hj) (hholds.keys_eq ▸ hi)

/-- A machine comes about exactly from complete registrations. -/
theorem exists_build_iff (name : String) (rs : List (Registration ι μ ο)) (data : δ) :
    (∃ m : Machine ι μ ο δ, (ofRegistrations name rs).build data = .ok m) ↔ Complete rs := by
  constructor
  · rintro ⟨m, hm⟩
    cases complete_or_refused name rs with
    | inl h => exact h
    | inr h =>
      obtain ⟨e, he⟩ := h
      rw [build_ofRegistrations_of_refused data he] at hm
      cases hm
  · intro h
    obtain ⟨blank, -, hbuild⟩ := build_ofRegistrations_of_complete name data h
    exact ⟨_, hbuild⟩

/-- What is reported is what is wrong with the registrations. -/
theorem build_eq_error_iff (name : String) (rs : List (Registration ι μ ο)) (data : δ) :
    ((ofRegistrations name rs).build data : Except DeskError (Machine ι μ ο δ)) = .error e ↔
      Refused name rs e := by
  constructor
  · intro he
    cases complete_or_refused name rs with
    | inl h =>
      obtain ⟨blank, -, hbuild⟩ := build_ofRegistrations_of_complete name data h
      rw [hbuild] at he
      cases he
    | inr h =>
      obtain ⟨e', he'⟩ := h
      rw [build_ofRegistrations_of_refused data he'] at he
      cases he
      exact he'
  · exact build_ofRegistrations_of_refused data

/-- Registrations make a machine exactly if no identifier and no name comes twice, no name is empty,
there is a mode to start in, and every identifier has one; if not, the first thing that is wrong is
reported. In a machine that comes about every mode was initialized once, and each tick from then on
is a call of every observer in order on a fresh outlook, one decision of the current mode, and the one
call that enters a mode that is switched to. -/
theorem build_ofRegistrations (name : String) (rs : List (Registration ι μ ο)) (data : δ) :
    ((∃ m : Machine ι μ ο δ, (ofRegistrations name rs).build data = .ok m) ↔ Complete rs) ∧
      (∀ e, ((ofRegistrations name rs).build data : Except DeskError (Machine ι μ ο δ)) =
        .error e ↔ Refused name rs e) ∧
      ∀ m : Machine ι μ ο δ, (ofRegistrations name rs).build data = .ok m →
        (∃ (blank : Machine ι μ ο δ) (order : List ι), blank.Blank name rs data ∧
          order.Perm (ids rs) ∧ m = order.foldl Machine.initMode blank) ∧
        ∀ m', m.Reaches m' → m'.Runs rs := by
  refine ⟨exists_build_iff name rs data, fun e ↦ build_eq_error_iff name rs data, fun m hm ↦ ?_⟩
  obtain ⟨blank, hblank, hbuild⟩ := build_ofRegistrations_of_complete name data
    ((exists_build_iff name rs data).mp ⟨m, hm⟩)
  obtain rfl : m = (ids rs).foldl Machine.initMode blank := by
    rw [hbuild] at hm
    exact (Except.ok.inj hm).symm
  refine ⟨⟨blank, ids rs, hblank, List.Perm.refl _, rfl⟩, fun m' hm' ↦ ?_⟩
  obtain ⟨hkeys, hlength⟩ := hm'.kept
  refine Machine.runs_of_keys ?_ ?_
  · rw [hkeys, Machine.keys_foldl_initMode, Table.keys, hblank.entries_eq, List.map_map]
    rfl
  · rw [hlength, Machine.foldl_initMode, hblank.observers_eq]

end Blueprint

namespace Mavg

open Registration

/-- The registrations of the moving-average strategy. -/
def registrations (settings : MavgSettings) : List (Registration ModeName ModeState Watch) :=
  [.mode (.normal 0), .mode .defense, .mode (.shutdown 0 0), .observer .position,
    .observer (.signal (.ofSettings settings)), .initial .normal]

theorem blueprint_eq (settings : MavgSettings) :
    blueprint settings = .ofRegistrations strategyName (registrations settings) := rfl

theorem ids_registrations (settings : MavgSettings) :
    ids (registrations settings) = [.normal, .defense, .shutdown] := rfl

theorem names_registrations (settings : MavgSettings) :
    names (registrations settings) = ["position", "ma_signal"] := rfl

theorem complete_registrations (settings : MavgSettings) : Complete (registrations settings) where
  ids_nodup := by
    rw [ids_registrations]
    decide
  names_nonempty := by
    rw [names_registrations]
    decide
  names_nodup := by
    rw [names_registrations]
    decide
  exists_initial := ⟨.normal, by simp [registrations]⟩
  all_registered := by
    rw [ids_registrations]
    decide

/-- The moving-average strategy comes about, but not with a mode registered twice. -/
theorem builds_and_refuses_twice :
    (∃ m : StrategyMachine,
      (Blueprint.ofRegistrations strategyName (registrations {})).build (.start {}) = .ok m ∧
        m.Runs (registrations {})) ∧
      ((Blueprint.ofRegistrations strategyName
        (.mode .defense :: registrations {})).build (.start {}) :
          Except DeskError StrategyMachine) = .error (.duplicateState "defense") := by
  obtain ⟨hexists, -, hruns⟩ :=
    Blueprint.build_ofRegistrations strategyName (registrations {}) (.start {})
  obtain ⟨-, herror, -⟩ := Blueprint.build_ofRegistrations strategyName
    (.mode .defense :: registrations {}) (.start {})
  obtain ⟨m, hm⟩ := hexists.mpr (complete_registrations {})
  refine ⟨⟨m, hm, (hruns m hm).2 m .refl⟩, (herror _).mpr (.registration ?_)⟩
  have hbefore : Faultless Offends
      ([.mode .defense, .mode (.normal 0)] : List (Registration ModeName ModeState Watch)) :=
    faultless_offends_iff.mpr (by decide)
  exact ⟨_, .mode .defense, _, rfl, hbefore, .modeTwice (by decide)⟩

end Mavg

end TradeDesk
