import TradeDesk.Dispatch.Worker
import TradeDesk.Proofs.Fault

/-!
# The looks of the worker

A turn of the worker is made of up to three looks at the world outside: at the flag, for a change of
the flag, and for an envelope. Anything can happen between two looks. Below is what one look can do,
what one event outside can do, and that turns are looks.
-/

namespace TradeDesk

namespace WorkerEvent

/-- The envelopes that events put into a queue; nothing is sent to a closed one. -/
def sent (closed : Bool) : List WorkerEvent → List Envelope
  | [] => []
  | .send e :: rest => if closed then sent closed rest else e :: sent closed rest
  | .closeQueue :: rest => sent true rest
  | .setShutdown _ :: rest => sent closed rest
  | .dropShutdown :: rest => sent closed rest
  | .turn :: rest => sent closed rest

/-- Nothing is sent to a closed queue. -/
theorem sent_true (events : List WorkerEvent) : sent true events = [] := by
  induction events with
  | nil => rfl
  | cons event rest ih => cases event <;> exact ih

/-- Whether the event is the worker's own. -/
def isTurn : WorkerEvent → Bool
  | .turn => true
  | _ => false

/-- How often the worker looks. -/
def looks : List WorkerEvent → Nat
  | [] => 0
  | .turn :: rest => looks rest + 1
  | _ :: rest => looks rest

/-- How often the flag is set, to either value. -/
def updates : List WorkerEvent → Nat
  | [] => 0
  | .setShutdown _ :: rest => updates rest + 1
  | _ :: rest => updates rest

end WorkerEvent

/-- What the worker looks at next. -/
inductive Sight where
  | flag
  | change
  | envelope
  deriving DecidableEq, Repr

/-- A worker between two looks. -/
structure Poised (η γ : Type) where
  worker : Worker η γ
  next : Sight

/-- A worker between two turns. -/
def Worker.poised {η γ : Type} (w : Worker η γ) : Poised η γ :=
  ⟨w, if w.waiting then .change else .flag⟩

namespace Poised

variable {η γ : Type} [Handler η γ]

/-- One look. A worker that finds no envelope in an open queue waits, for a change of the flag
first. -/
def look (p : Poised η γ) : Except Fault (Poised η γ) :=
  let w := p.worker
  if w.done then .ok p
  else
    match p.next with
    | .flag => .ok (if w.shutdown then w.finish.poised else { p with next := .change })
    | .change =>
      .ok (if w.watching ∧ w.unseen then { w with unseen := false, waiting := false }.poised
        else if w.watching ∧ ¬ w.owned then { w with watching := false, waiting := false }.poised
        else { p with next := .envelope })
    | .envelope =>
      match w.queue with
      | e :: rest => do
        let (_, chain, state) ← w.chain.dispatch w.state e
        return { w with chain := chain, state := state, queue := rest, waiting := false }.poised
      | [] => .ok (if w.closed then w.finish else { w with waiting := true }).poised

/-- One event, of which the worker's part is one look. -/
def step (p : Poised η γ) : WorkerEvent → Except Fault (Poised η γ)
  | .turn => p.look
  | event => (p.worker.step event).map fun w => { p with worker := w }

/-- A sequence of events. -/
def run (p : Poised η γ) : List WorkerEvent → Except Fault (Poised η γ)
  | [] => .ok p
  | event :: rest => do (← p.step event).run rest

/-- The worker is about to look at a flag that is set. -/
def seesSet (p : Poised η γ) : Bool := !p.worker.done && p.next = .flag && p.worker.shutdown

/-- How many looks are enough while nothing happens: three for each envelope, for seeing a change of
the flag and for ceasing to watch it, and those that are left of the present turn. -/
def rank (p : Poised η γ) : Nat :=
  3 * p.worker.queue.length + (if p.worker.watching then 3 else 0) +
    (if p.worker.unseen then 3 else 0) +
    match p.next with
    | .flag => 3
    | .change => 2
    | .envelope => 1

omit [Handler η γ] in
theorem rank_le (p : Poised η γ) : p.rank ≤ 3 * p.worker.queue.length + 9 := by
  rw [rank]
  split <;> split <;> split <;> omega

omit [Handler η γ] in
theorem rank_pos (p : Poised η γ) : 0 < p.rank := by
  rw [rank]
  cases p.next <;> exact Nat.succ_pos _

/-! ### What a look can do -/

/-- What can come of a look. -/
inductive Outcome (p : Poised η γ) : Except Fault (Poised η γ) → Prop
  /-- The worker was done before. -/
  | stopped (done : p.worker.done = true) : Outcome p (.ok p)
  /-- The flag was set. -/
  | shutdown (sees : p.seesSet = true) : Outcome p (.ok p.worker.finish.poised)
  /-- Nothing was dispatched, and the worker goes on. -/
  | idle {q : Poised η γ} (sees : p.seesSet = false) (chain : q.worker.chain = p.worker.chain)
      (state : q.worker.state = p.worker.state) (queue : q.worker.queue = p.worker.queue)
      (closed : q.worker.closed = p.worker.closed)
      (flag : q.worker.shutdown = p.worker.shutdown) (before : p.worker.done = false)
      (after : q.worker.done = false) (rank : p.worker.closed = true → q.rank < p.rank) :
      Outcome p (.ok q)
  /-- An envelope was dispatched, and the worker goes on. -/
  | dispatched {e : Envelope} {rest : List Envelope} {claimer : Option String} {chain : Chain η}
      {state : γ} (sees : p.seesSet = false) (before : p.worker.done = false)
      (queue : p.worker.queue = e :: rest)
      (dispatch : p.worker.chain.dispatch p.worker.state e = .ok (claimer, chain, state))
      (next : p.next = .envelope) :
      Outcome p (.ok (Worker.poised
        { p.worker with chain := chain, state := state, queue := rest, waiting := false }))
  /-- An envelope was dispatched, and a handler failed. -/
  | failed {e : Envelope} {rest : List Envelope} {f : Fault} (before : p.worker.done = false)
      (queue : p.worker.queue = e :: rest)
      (dispatch : p.worker.chain.dispatch p.worker.state e = .error f) : Outcome p (.error f)
  /-- The queue was closed and empty. -/
  | exhausted (sees : p.seesSet = false) (before : p.worker.done = false)
      (queue : p.worker.queue = []) (closed : p.worker.closed = true) :
      Outcome p (.ok p.worker.finish.poised)

/-- A worker that is done does not look. -/
private theorem look_of_done {p : Poised η γ} (h : p.worker.done = true) : p.look = .ok p := if_pos h

section

variable {w : Worker η γ} (h : w.done = false)

include h

private theorem look_flag : (⟨w, .flag⟩ : Poised η γ).look =
    .ok (if w.shutdown then w.finish.poised else ⟨w, .change⟩) :=
  if_neg (Bool.eq_false_iff.mp h)

private theorem look_change : (⟨w, .change⟩ : Poised η γ).look =
    .ok (if w.watching ∧ w.unseen then { w with unseen := false, waiting := false }.poised
      else if w.watching ∧ ¬ w.owned then { w with watching := false, waiting := false }.poised
      else ⟨w, .envelope⟩) :=
  if_neg (Bool.eq_false_iff.mp h)

private theorem look_envelope_cons {e : Envelope} {rest : List Envelope}
    (hqueue : w.queue = e :: rest) : (⟨w, .envelope⟩ : Poised η γ).look =
      (w.chain.dispatch w.state e).map fun (_, chain, state) =>
        { w with chain := chain, state := state, queue := rest, waiting := false }.poised := by
  rw [look, if_neg (Bool.eq_false_iff.mp h)]
  dsimp only
  rw [hqueue]
  show (w.chain.dispatch w.state e >>= _) = _
  cases w.chain.dispatch w.state e with
  | error f => rfl
  | ok a => rfl

private theorem look_envelope_nil (hqueue : w.queue = []) : (⟨w, .envelope⟩ : Poised η γ).look =
    .ok (if w.closed then w.finish else { w with waiting := true }).poised := by
  rw [look, if_neg (Bool.eq_false_iff.mp h)]
  dsimp only
  rw [hqueue]

end

theorem outcome_look (p : Poised η γ) : Outcome p p.look := by
  rcases p with ⟨w, next⟩
  cases hdone : w.done with
  | true =>
    rw [look_of_done hdone]
    exact .stopped hdone
  | false =>
    cases next with
    | flag =>
      rw [look_flag hdone]
      by_cases hset : w.shutdown
      · rw [if_pos hset]
        exact .shutdown (by simp [seesSet, hdone, hset])
      · rw [if_neg hset]
        exact .idle (by simp [seesSet, hset]) rfl rfl rfl rfl rfl hdone hdone
          fun _ ↦ Nat.lt_succ_self _
    | change =>
      have hsees : (⟨w, .change⟩ : Poised η γ).seesSet = false := by simp [seesSet]
      rw [look_change hdone]
      by_cases hnews : w.watching ∧ w.unseen
      · rw [if_pos hnews]
        refine .idle hsees rfl rfl rfl rfl rfl hdone hdone fun _ ↦ ?_
        simp [rank, Worker.poised, hnews.1, hnews.2]
      · rw [if_neg hnews]
        by_cases hgone : w.watching ∧ ¬ w.owned
        · rw [if_pos hgone]
          refine .idle hsees rfl rfl rfl rfl rfl hdone hdone fun _ ↦ ?_
          simp [rank, Worker.poised, hgone.1]
          omega
        · rw [if_neg hgone]
          exact .idle hsees rfl rfl rfl rfl rfl hdone hdone fun _ ↦ Nat.lt_succ_self _
    | envelope =>
      have hsees : (⟨w, .envelope⟩ : Poised η γ).seesSet = false := by simp [seesSet]
      cases hqueue : w.queue with
      | nil =>
        rw [look_envelope_nil hdone hqueue]
        by_cases hclosed : w.closed
        · rw [if_pos hclosed]
          exact .exhausted hsees hdone hqueue hclosed
        · rw [if_neg hclosed]
          exact .idle hsees rfl rfl rfl rfl rfl hdone hdone fun h ↦ absurd h hclosed
      | cons e rest =>
        rw [look_envelope_cons hdone hqueue]
        cases hdispatch : w.chain.dispatch w.state e with
        | error f => exact .failed hdone hqueue hdispatch
        | ok a => exact .dispatched hsees hdone hqueue hdispatch rfl

/-! ### What other events can do -/

variable {p q : Poised η γ} {event : WorkerEvent} {events : List WorkerEvent}

/-- What an event outside does: it changes the queue and the flag. -/
structure Outside (p : Poised η γ) (event : WorkerEvent) (q : Poised η γ) : Prop where
  chain : q.worker.chain = p.worker.chain
  state : q.worker.state = p.worker.state
  done : q.worker.done = p.worker.done
  queue : q.worker.queue = p.worker.queue ++ WorkerEvent.sent p.worker.closed [event]
  sent : ∀ events, WorkerEvent.sent p.worker.closed (event :: events) =
    WorkerEvent.sent p.worker.closed [event] ++ WorkerEvent.sent q.worker.closed events
  closed : p.worker.closed = true → q.worker.closed = true
  unset : p.worker.shutdown = false → event ≠ .setShutdown true → q.worker.shutdown = false
  rank : p.worker.closed = true → q.rank ≤ p.rank + 3 * WorkerEvent.updates [event]

omit [Handler η γ] in
/-- An event that changes neither what was sent nor the flag. -/
private theorem Outside.refl (p : Poised η γ)
    (h : ∀ events, WorkerEvent.sent p.worker.closed (event :: events) =
      WorkerEvent.sent p.worker.closed events) : Outside p event p where
  chain := rfl
  state := rfl
  done := rfl
  queue := by rw [h, WorkerEvent.sent, List.append_nil]
  sent events := by rw [h, h, WorkerEvent.sent, List.nil_append]
  closed := id
  unset h _ := h
  rank _ := Nat.le_add_right _ _

theorem outside_step (p : Poised η γ) (h : event ≠ .turn) :
    ∃ q, p.step event = .ok q ∧ Outside p event q := by
  rcases p with ⟨w, next⟩
  cases event with
  | send e =>
    refine ⟨_, rfl, ?_⟩
    by_cases hclosed : w.closed
    · rw [if_pos hclosed]
      exact .refl _ fun _ ↦ if_pos hclosed
    · rw [if_neg hclosed]
      have hsent : ∀ events, WorkerEvent.sent w.closed (.send e :: events) =
          e :: WorkerEvent.sent w.closed events := fun _ ↦ if_neg hclosed
      exact {
        chain := rfl
        state := rfl
        done := rfl
        queue := congrArg (w.queue ++ ·) (hsent []).symm
        sent := fun events ↦ by rw [hsent, hsent]; rfl
        closed := id
        unset := fun h _ ↦ h
        rank := fun h ↦ absurd h hclosed }
  | closeQueue =>
    refine ⟨_, rfl, ?_⟩
    exact {
      chain := rfl
      state := rfl
      done := rfl
      queue := (List.append_nil _).symm
      sent := fun _ ↦ rfl
      closed := fun _ ↦ rfl
      unset := fun h _ ↦ h
      rank := fun _ ↦ Nat.le_add_right _ _ }
  | setShutdown b =>
    refine ⟨_, rfl, ?_⟩
    by_cases howned : w.owned
    · rw [if_pos howned]
      have hunset : .setShutdown b ≠ WorkerEvent.setShutdown true → b = false := by
        cases b with
        | true => exact fun h ↦ absurd rfl h
        | false => exact fun _ ↦ rfl
      exact {
        chain := rfl
        state := rfl
        done := rfl
        queue := (List.append_nil _).symm
        sent := fun _ ↦ rfl
        closed := id
        unset := fun _ ↦ hunset
        rank := fun _ ↦ by
          simp only [Poised.rank, WorkerEvent.updates, if_true]
          omega }
    · rw [if_neg howned]
      exact .refl _ fun _ ↦ rfl
  | dropShutdown =>
    refine ⟨_, rfl, ?_⟩
    exact {
      chain := rfl
      state := rfl
      done := rfl
      queue := (List.append_nil _).symm
      sent := fun _ ↦ rfl
      closed := id
      unset := fun h _ ↦ h
      rank := fun _ ↦ Nat.le_add_right _ _ }
  | turn => exact absurd rfl h

/-- An event is a look or comes from outside. -/
theorem step_cases (h : p.step event = .ok q) :
    event = .turn ∧ Outcome p (.ok q) ∨ event ≠ .turn ∧ Outside p event q := by
  by_cases hturn : event = .turn
  · cases hturn
    have hlook : p.look = .ok q := h
    exact Or.inl ⟨rfl, hlook ▸ outcome_look p⟩
  · obtain ⟨q', hq', houtside⟩ := outside_step p hturn
    cases hq'.symm.trans h
    exact Or.inr ⟨hturn, houtside⟩

/-- Only a look can fail. -/
theorem outcome_of_error {f : Fault} (h : p.step event = .error f) : Outcome p (.error f) := by
  by_cases hturn : event = .turn
  · cases hturn
    have hlook : p.look = .error f := h
    exact hlook ▸ outcome_look p
  · obtain ⟨q, hq, -⟩ := outside_step p hturn
    cases hq.symm.trans h

/-- A look leaves the queue open or closed and the flag as it is. -/
theorem Outcome.kept (h : Outcome p (.ok q)) :
    q.worker.closed = p.worker.closed ∧ q.worker.shutdown = p.worker.shutdown := by
  cases h with
  | stopped => exact ⟨rfl, rfl⟩
  | shutdown => exact ⟨rfl, rfl⟩
  | idle _ _ _ _ closed flag => exact ⟨closed, flag⟩
  | dispatched => exact ⟨rfl, rfl⟩
  | exhausted => exact ⟨rfl, rfl⟩

omit [Handler η γ] in
/-- Whoever looks at a set flag is not done yet. -/
theorem done_of_seesSet (h : p.seesSet = true) : p.worker.done = false := by
  cases hdone : p.worker.done with
  | false => rfl
  | true => simp [seesSet, hdone] at h

/-- A worker that is done stays as it is. -/
theorem Outcome.of_done (h : Outcome p (.ok q)) (hp : p.worker.done = true) : q = p := by
  cases h with
  | stopped => rfl
  | shutdown sees => exact absurd hp (Bool.eq_false_iff.mp (done_of_seesSet sees))
  | idle _ _ _ _ _ _ before => exact absurd hp (Bool.eq_false_iff.mp before)
  | dispatched _ before => exact absurd hp (Bool.eq_false_iff.mp before)
  | exhausted _ before => exact absurd hp (Bool.eq_false_iff.mp before)

/-- A look at a set flag ends the work. -/
theorem Outcome.of_seesSet (h : Outcome p (.ok q)) (hp : p.seesSet = true) :
    q = p.worker.finish.poised := by
  cases h with
  | stopped done => exact absurd done (Bool.eq_false_iff.mp (done_of_seesSet hp))
  | shutdown => rfl
  | idle sees => exact absurd hp (Bool.eq_false_iff.mp sees)
  | dispatched sees => exact absurd hp (Bool.eq_false_iff.mp sees)
  | exhausted => rfl

/-- Every look at a closed queue brings the end nearer. -/
theorem Outcome.rank_lt (h : Outcome p (.ok q)) (hp : p.worker.closed = true) :
    q.worker.done = true ∨ q.rank < p.rank := by
  cases h with
  | stopped done => exact Or.inl done
  | shutdown => exact Or.inl rfl
  | idle _ _ _ _ _ _ _ _ hrank => exact Or.inr (hrank hp)
  | dispatched _ _ queue _ next =>
    right
    simp [rank, Worker.poised, queue, next]
    omega
  | exhausted => exact Or.inl rfl

/-- What is sent in a sequence of events is sent in the first and then in the others. -/
theorem sent_cons (h : p.step event = .ok q) (events : List WorkerEvent) :
    WorkerEvent.sent p.worker.closed (event :: events) =
      WorkerEvent.sent p.worker.closed [event] ++ WorkerEvent.sent q.worker.closed events := by
  cases step_cases h with
  | inl hlook =>
    rw [hlook.1, hlook.2.kept.1]
    rfl
  | inr houtside => exact houtside.2.sent events

/-- A closed queue stays closed. -/
theorem closed_step (h : p.step event = .ok q) (hp : p.worker.closed = true) :
    q.worker.closed = true := by
  cases step_cases h with
  | inl hlook => exact hlook.2.kept.1.trans hp
  | inr houtside => exact houtside.2.closed hp

/-! ### Sequences of events -/

theorem run_cons : p.run (event :: events) = .ok q ↔
    ∃ p', p.step event = .ok p' ∧ p'.run events = .ok q := by
  rw [run]
  exact Except.bind_eq_ok

theorem run_append (p : Poised η γ) (a b : List WorkerEvent) :
    p.run (a ++ b) = p.run a >>= fun q => q.run b := by
  induction a generalizing p with
  | nil => rfl
  | cons event rest ih =>
    rw [List.cons_append, run, run]
    cases p.step event with
    | error f => rfl
    | ok q => exact ih q

/-- What is sent in two sequences of events. -/
theorem sent_append {before : List WorkerEvent} (h : p.run before = .ok q)
    (later : List WorkerEvent) :
    WorkerEvent.sent p.worker.closed (before ++ later) =
      WorkerEvent.sent p.worker.closed before ++ WorkerEvent.sent q.worker.closed later := by
  induction before generalizing p with
  | nil =>
    cases h
    rfl
  | cons event rest ih =>
    obtain ⟨p', hstep, hrest⟩ := run_cons.mp h
    rw [List.cons_append, sent_cons hstep, ih hrest, sent_cons hstep rest, List.append_assoc]

/-! ### Turns -/

private theorem run_one (p : Poised η γ) : p.run [.turn] = p.look := by
  rw [run, step]
  cases p.look with
  | error f => rfl
  | ok q => rfl

private theorem run_replicate_succ (p : Poised η γ) (n : Nat) :
    p.run (List.replicate (n + 1) .turn) = p.look >>= fun q => q.run (List.replicate n .turn) :=
  rfl

/-- Looking for a change of the flag and then for an envelope is what the worker does while it
waits. -/
private theorem select_eq_looks (w : Worker η γ) (hw : w.done = false) :
    ∃ n, n ≤ 2 ∧
      (⟨w, .change⟩ : Poised η γ).run (List.replicate n .turn) = w.select.map Worker.poised := by
  rw [Worker.select]
  by_cases hnews : w.watching ∧ w.unseen
  · refine ⟨1, by omega, ?_⟩
    rw [List.replicate_one, run_one, look_change hw, if_pos hnews, if_pos hnews]
    rfl
  · by_cases hgone : w.watching ∧ ¬ w.owned
    · refine ⟨1, by omega, ?_⟩
      rw [List.replicate_one, run_one, look_change hw, if_neg hnews, if_pos hgone, if_neg hnews,
        if_pos hgone]
      rfl
    · refine ⟨2, by omega, ?_⟩
      rw [run_replicate_succ, look_change hw, if_neg hnews, if_neg hgone, if_neg hnews,
        if_neg hgone, Except.ok_bind, List.replicate_one, run_one]
      split
      · next e rest hqueue =>
        rw [look_envelope_cons hw hqueue]
        show _ = (w.chain.dispatch w.state e >>= _).map _
        cases w.chain.dispatch w.state e with
        | error f => rfl
        | ok a => rfl
      · next hqueue =>
        rw [look_envelope_nil hw hqueue]
        rfl

/-- A turn is a few looks. -/
theorem turn_eq_looks (w : Worker η γ) :
    ∃ n, n ≤ 3 ∧ w.poised.run (List.replicate n .turn) = w.turn.map Worker.poised := by
  rw [Worker.turn]
  cases hdone : w.done with
  | true => exact ⟨0, by omega, rfl⟩
  | false =>
    obtain ⟨n, hn, hselect⟩ := select_eq_looks w hdone
    rw [if_neg Bool.false_ne_true]
    cases hwaiting : w.waiting with
    | true =>
      have hpoised : w.poised = ⟨w, .change⟩ := by rw [Worker.poised, if_pos hwaiting]
      refine ⟨n, by omega, ?_⟩
      rw [if_neg (by simp), hpoised]
      exact hselect
    | false =>
      have hpoised : w.poised = ⟨w, .flag⟩ := by rw [Worker.poised, if_neg (by simp [hwaiting])]
      cases hset : w.shutdown with
      | true =>
        refine ⟨1, by omega, ?_⟩
        rw [if_pos (by simp), List.replicate_one, hpoised, run_one, look_flag hdone, if_pos hset]
        rfl
      | false =>
        refine ⟨n + 1, by omega, ?_⟩
        rw [if_neg (by simp), hpoised, run_replicate_succ, look_flag hdone,
          if_neg (Bool.eq_false_iff.mp hset), Except.ok_bind]
        exact hselect

private theorem step_eq_looks (w : Worker η γ) (event : WorkerEvent) :
    ∃ few : List WorkerEvent, few.filter (!·.isTurn) = [event].filter (!·.isTurn) ∧
      w.poised.run few = (w.step event).map Worker.poised := by
  cases event with
  | turn =>
    obtain ⟨n, -, hturn⟩ := turn_eq_looks w
    refine ⟨List.replicate n .turn, ?_, hturn⟩
    exact (List.filter_replicate_of_neg (by decide)).trans rfl
  | send e =>
    refine ⟨[.send e], rfl, ?_⟩
    show Except.ok (Poised.mk (if w.closed then _ else _) _) = Except.ok (Worker.poised (if _ then _ else _))
    split
    · rfl
    · rfl
  | setShutdown b =>
    refine ⟨[.setShutdown b], rfl, ?_⟩
    show Except.ok (Poised.mk (if w.owned then _ else _) _) = Except.ok (Worker.poised (if _ then _ else _))
    split
    · rfl
    · rfl
  | closeQueue => exact ⟨[.closeQueue], rfl, rfl⟩
  | dropShutdown => exact ⟨[.dropShutdown], rfl, rfl⟩

/-- What the worker does in turns it also does in looks, among the same events outside. -/
theorem run_eq_looks (w : Worker η γ) (events : List WorkerEvent) :
    ∃ finer : List WorkerEvent, finer.filter (!·.isTurn) = events.filter (!·.isTurn) ∧
      w.poised.run finer = (w.run events).map Worker.poised := by
  induction events generalizing w with
  | nil => exact ⟨[], rfl, rfl⟩
  | cons event rest ih =>
    obtain ⟨few, hfew, hstep⟩ := step_eq_looks w event
    have hfilter : ∀ {l : List WorkerEvent}, l.filter (!·.isTurn) = rest.filter (!·.isTurn) →
        (few ++ l).filter (!·.isTurn) = (event :: rest).filter (!·.isTurn) := by
      intro l hl
      rw [List.filter_append, hfew, hl, ← List.filter_append, List.singleton_append]
    rw [Worker.run]
    cases hw : w.step event with
    | error f =>
      refine ⟨few ++ rest, hfilter rfl, ?_⟩
      rw [run_append, hstep, hw]
      rfl
    | ok w' =>
      obtain ⟨finer, houtside, hrun⟩ := ih w'
      refine ⟨few ++ finer, hfilter houtside, ?_⟩
      rw [run_append, hstep, hw]
      exact hrun

end Poised

end TradeDesk
