import TradeDesk.Proofs.Fault
import TradeDesk.Strategy.Machine

/-!
# Calls of modes and observers

What a machine does on a tick, told by the list of calls that are made in it: the outlook is cleared,
every observer is called in order, then the current mode is asked what is next, and a mode that is
switched to is entered.
-/

namespace TradeDesk

namespace Machine

/-- A call that is made in a machine during a tick. -/
inductive Call (ι : Type) where
  /-- Starts a fresh outlook. -/
  | clear
  /-- Lets the observer at a position add to the outlook. -/
  | observe (n : Nat)
  /-- Asks a mode which mode comes next. -/
  | decide (i : ι)
  /-- Enters a mode, which is then the current one. -/
  | enter (i : ι)
  deriving DecidableEq

variable {ι μ ο δ : Type} [DecidableEq ι]

/-- A machine and its desk between two calls, and what was decided last. -/
structure Work (ι μ ο δ : Type) [DecidableEq ι] where
  machine : Machine ι μ ο δ
  desk : Desk
  decided : Option ι := none

variable [Mode μ ι δ]

/-- Initializes the mode of an identifier. -/
def initMode (m : Machine ι μ ο δ) (i : ι) : Machine ι μ ο δ :=
  let (mode, data) := Mode.init (m.mode i) m.data
  { m.setMode i mode with data := data }

variable [Observer ο]

/-- Makes a call. -/
def call (tick : Tick) (w : Work ι μ ο δ) : Call ι → Except Fault (Work ι μ ο δ)
  | .clear => .ok { w with machine := { w.machine with outlook := .start tick.key } }
  | .observe n =>
    match w.machine.observers[n]? with
    | none => .ok w
    | some o =>
      let (o, d, outlook) := Observer.observe o w.desk tick w.machine.outlook
      .ok { w with
        machine := { w.machine with observers := w.machine.observers.set n o, outlook := outlook }
        desk := d }
  | .decide i => do
    let m := w.machine
    let (target, mode, d, data) ← Mode.decide (m.mode i) w.desk tick m.outlook m.data
    return { machine := { m.setMode i mode with data := data }, desk := d, decided := some target }
  | .enter i =>
    let (mode, d, data) := Mode.enter (w.machine.mode i) w.desk w.machine.data
    .ok { w with
      machine := { w.machine.setMode i mode with data := data, current := i }
      desk := d }

/-- Makes calls one after another, up to the first that fails. -/
def calls (tick : Tick) (w : Work ι μ ο δ) (script : List (Call ι)) : Except Fault (Work ι μ ο δ) :=
  script.foldlM (call tick) w

omit [Mode μ ι δ] [Observer ο] in
/-- The calls that fill a fresh outlook, and the one that decides on it. -/
def asks (m : Machine ι μ ο δ) : List (Call ι) :=
  .clear :: (List.range m.observers.length).map .observe ++ [.decide m.current]

omit [Mode μ ι δ] [Observer ο] in
/-- The calls of a tick after which a mode is to be next: another mode is entered. -/
def script (m : Machine ι μ ο δ) (target : ι) : List (Call ι) :=
  m.asks ++ if target = m.current then [] else [.enter target]

omit [Mode μ ι δ] [Observer ο] in
/-- The machine with its observers replaced, and the outlook as they have left it. -/
def seeing (m : Machine ι μ ο δ) (observers : List ο) (outlook : Outlook) : Machine ι μ ο δ :=
  { m with observers := observers, outlook := outlook }

variable {m m' : Machine ι μ ο δ} {d d' : Desk} {tick : Tick} {moved : Option (ι × ι)}

theorem calls_cons (w : Work ι μ ο δ) (c : Call ι) (script : List (Call ι)) :
    calls tick w (c :: script) = call tick w c >>= fun w ↦ calls tick w script :=
  List.foldlM_cons

theorem calls_append (w : Work ι μ ο δ) (a b : List (Call ι)) :
    calls tick w (a ++ b) = calls tick w a >>= fun w ↦ calls tick w b :=
  List.foldlM_append

theorem calls_singleton (w : Work ι μ ο δ) (c : Call ι) : calls tick w [c] = call tick w c := by
  rw [calls_cons]
  exact bind_pure _

private theorem calls_observes_from (m : Machine ι μ ο δ) (tick : Tick) (called rest : List ο)
    (outlook : Outlook) (d : Desk) (decided : Option ι) :
    calls tick ⟨m.seeing (called ++ rest) outlook, d, decided⟩
        ((List.range' called.length rest.length).map .observe) =
      .ok ⟨m.seeing (called ++ (observeAll d tick outlook rest).1)
          (observeAll d tick outlook rest).2.2,
        (observeAll d tick outlook rest).2.1, decided⟩ := by
  induction rest generalizing called outlook d with
  | nil => rfl
  | cons o rest ih =>
    rcases hsee : Observer.observe o d tick outlook with ⟨o', d', outlook'⟩
    have hcall : call tick ⟨m.seeing (called ++ o :: rest) outlook, d, decided⟩
        (.observe called.length) =
          .ok ⟨m.seeing ((called ++ [o']) ++ rest) outlook', d', decided⟩ := by
      simp [call, seeing, hsee]
    have hrest := ih (called ++ [o']) outlook' d'
    rw [List.length_append, List.length_singleton,
      List.append_assoc called [o'] (observeAll _ _ _ _).1, List.singleton_append] at hrest
    rw [List.length_cons, List.range'_succ, List.map_cons, calls_cons, hcall, Except.ok_bind, hrest]
    simp only [observeAll, hsee]

/-- What the current mode decides on a tick, on what the observers see. -/
def decision (m : Machine ι μ ο δ) (d : Desk) (tick : Tick) : Except Fault (ι × μ × Desk × δ) :=
  let (_, d, outlook) := observeAll d tick (.start tick.key) m.observers
  Mode.decide (m.mode m.current) d tick outlook m.data

/-- The machine after its current mode has decided on a tick. -/
def afterDecision (m : Machine ι μ ο δ) (d : Desk) (tick : Tick) (mode : μ) (data : δ) :
    Machine ι μ ο δ :=
  let (observers, _, outlook) := observeAll d tick (.start tick.key) m.observers
  { (m.seeing observers outlook).setMode m.current mode with data := data }

/-- Every observer is called in order on a fresh outlook, and then the current mode decides. -/
theorem calls_asks (m : Machine ι μ ο δ) (d : Desk) (tick : Tick) :
    calls tick { machine := m, desk := d } m.asks =
      m.decision d tick >>= fun (target, mode, d', data) ↦
        .ok ⟨m.afterDecision d tick mode data, d', some target⟩ := by
  have hclear : call tick { machine := m, desk := d } .clear =
      .ok ⟨m.seeing ([] ++ m.observers) (.start tick.key), d, none⟩ := rfl
  have hseen := calls_observes_from m tick [] m.observers (.start tick.key) d none
  rw [List.length_nil] at hseen
  rw [asks, List.cons_append, calls_cons, hclear, Except.ok_bind, calls_append,
    List.range_eq_range', hseen, Except.ok_bind, calls_singleton]
  rfl

/-- What a tick makes of a decision: another mode that is decided on is entered. -/
private theorem step_eq_bind (m : Machine ι μ ο δ) (d : Desk) (tick : Tick) :
    m.step d tick = m.decision d tick >>= fun (target, mode, d', data) ↦
      let w : Work ι μ ο δ := ⟨m.afterDecision d tick mode data, d', some target⟩
      if target = m.current then .ok (none, w.machine, w.desk)
      else
        (call tick w (.enter target)).map fun w ↦ (some (m.current, target), w.machine, w.desk) :=
  rfl

/-- One tick is the calls of its script, and the answer is the switch of modes, if there was one. -/
theorem step_eq_ok_iff :
    m.step d tick = .ok (moved, m', d') ↔
      ∃ target, calls tick { machine := m, desk := d } (m.script target) =
          .ok ⟨m', d', some target⟩ ∧
        moved = if target = m.current then none else some (m.current, target) := by
  simp only [script, calls_append, calls_asks, step_eq_bind]
  cases m.decision d tick with
  | error f =>
    refine iff_of_false nofun ?_
    rintro ⟨_, h, _⟩
    cases h
  | ok decided =>
    obtain ⟨target, mode, d₁, data⟩ := decided
    simp only [Except.ok_bind]
    constructor
    · intro h
      refine ⟨target, ?_⟩
      split at h
      · next hstay =>
        cases h
        rw [if_pos hstay, if_pos hstay]
        exact ⟨rfl, rfl⟩
      · next hne =>
        cases h
        rw [if_neg hne, if_neg hne, calls_singleton]
        exact ⟨rfl, rfl⟩
    · rintro ⟨target', h, rfl⟩
      -- Entering a mode does not decide anew.
      have htarget : target' = target := by
        split at h
        · cases h
          rfl
        · cases h
          rfl
      subst htarget
      split at h
      · next hstay =>
        cases h
        rw [if_pos hstay, if_pos hstay]
      · next hne =>
        cases h
        rw [if_neg hne, if_neg hne]
        rfl

/-- A tick fails only where the current mode does, and then no mode is entered. -/
theorem step_eq_error_iff {f : Fault} :
    m.step d tick = .error f ↔ calls tick { machine := m, desk := d } m.asks = .error f := by
  rw [calls_asks, step_eq_bind]
  cases m.decision d tick with
  | error f' => rw [Except.error_bind, Except.error_bind, Except.error.injEq, Except.error.injEq]
  | ok decided =>
    obtain ⟨target, mode, d₁, data⟩ := decided
    refine iff_of_false ?_ nofun
    simp only [Except.ok_bind]
    split
    · nofun
    · nofun

/-! ### What is kept -/

omit [Mode μ ι δ] [Observer ο] in
theorem mem_keys (m : Machine ι μ ο δ) (i : ι) : i ∈ m.modes.keys :=
  Table.contains_iff_mem_keys.mp (m.complete i)

omit [Mode μ ι δ] [Observer ο] in
theorem keys_setMode (m : Machine ι μ ο δ) (i : ι) (mode : μ) :
    (m.setMode i mode).modes.keys = m.modes.keys :=
  Table.keys_insert (m.mem_keys i) mode

/-- A call neither adds a mode or an observer nor loses one. -/
theorem kept_of_call {w w' : Work ι μ ο δ} {c : Call ι} (h : call tick w c = .ok w') :
    w'.machine.modes.keys = w.machine.modes.keys ∧
      w'.machine.observers.length = w.machine.observers.length := by
  cases c with
  | clear =>
    cases h
    exact ⟨rfl, rfl⟩
  | observe n =>
    rw [call] at h
    split at h
    · cases h
      exact ⟨rfl, rfl⟩
    · cases h
      exact ⟨rfl, List.length_set⟩
  | decide i =>
    obtain ⟨⟨target, mode, d, data⟩, -, h⟩ := Except.bind_eq_ok.mp h
    cases h
    exact ⟨keys_setMode _ _ _, rfl⟩
  | enter i =>
    cases h
    exact ⟨keys_setMode _ _ _, rfl⟩

theorem kept_of_calls {w w' : Work ι μ ο δ} {script : List (Call ι)}
    (h : calls tick w script = .ok w') :
    w'.machine.modes.keys = w.machine.modes.keys ∧
      w'.machine.observers.length = w.machine.observers.length := by
  induction script generalizing w with
  | nil =>
    cases h
    exact ⟨rfl, rfl⟩
  | cons c rest ih =>
    rw [calls_cons] at h
    obtain ⟨w₁, hc, hrest⟩ := Except.bind_eq_ok.mp h
    obtain ⟨hkeys, hlength⟩ := kept_of_call hc
    obtain ⟨hkeys', hlength'⟩ := ih hrest
    exact ⟨hkeys'.trans hkeys, hlength'.trans hlength⟩

/-- A tick neither adds a mode or an observer nor loses one. -/
theorem kept_of_step (h : m.step d tick = .ok (moved, m', d')) :
    m'.modes.keys = m.modes.keys ∧ m'.observers.length = m.observers.length := by
  obtain ⟨target, hcalls, -⟩ := step_eq_ok_iff.mp h
  exact kept_of_calls hcalls

end Machine

end TradeDesk
