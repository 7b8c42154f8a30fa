import TradeDesk.Proofs.Dispatch.Calls
import TradeDesk.Proofs.Dispatch.Looks

/-!
# The worker among other events

Whatever happens between the looks of the worker, it starts every handler, dispatches the envelopes
in the order in which they were sent up to some point, each once, and in the end stops every handler.
-/

namespace TradeDesk.Poised

variable {η γ : Type} [Handler η γ] {p q : Poised η γ} {event : WorkerEvent}
  {events : List WorkerEvent}

/-! ### What was dispatched -/

/-- A worker has dispatched the envelopes `taken` of those that were sent, in a chain that it has
started and, once it is done, stopped. -/
structure Dispatched (c : Chain η) (s : γ) (sent taken : List Envelope) (p : Poised η γ) :
    Prop where
  sent_eq : sent = taken ++ p.worker.queue
  calls_eq : Chain.calls (c, s) (Chain.script c.handlers.length taken p.worker.done) =
    .ok (p.worker.chain, p.worker.state)
  length_eq : p.worker.chain.handlers.length = c.handlers.length
  processed_eq : p.worker.chain.processed = c.processed + taken.length

variable {c : Chain η} {s : γ} {sent taken : List Envelope}

/-- At the start nothing is dispatched. -/
theorem dispatched_begin (c : Chain η) (s : γ) (queue : List Envelope)
    (closed shutdown owned : Bool) :
    Dispatched c s queue [] (Worker.begin c s queue closed shutdown owned).poised where
  sent_eq := rfl
  calls_eq := by
    have hscript : Chain.script c.handlers.length [] false =
        (List.range c.handlers.length).map .start := by simp [Chain.script]
    show Chain.calls (c, s) (Chain.script _ _ false) = _
    rw [hscript]
    exact Chain.calls_starts c s
  length_eq := Chain.length_start c s
  processed_eq := rfl

namespace Dispatched

/-- The end stops the chain and nothing else. -/
theorem finish (h : Dispatched c s sent taken p) (hp : p.worker.done = false) :
    Dispatched c s sent taken p.worker.finish.poised where
  sent_eq := h.sent_eq
  calls_eq := by
    show Chain.calls (c, s) (Chain.script _ _ true) = _
    have hcalls := h.calls_eq
    rw [hp] at hcalls
    rw [Chain.calls_script_true, hcalls, ← h.length_eq]
    exact Chain.calls_stops p.worker.chain p.worker.state
  length_eq := (Chain.length_stop p.worker.chain p.worker.state).trans h.length_eq
  processed_eq := h.processed_eq

/-- Nothing changes while chain, state and queue stay the same. -/
private theorem same (h : Dispatched c s sent taken p) (chain : q.worker.chain = p.worker.chain)
    (state : q.worker.state = p.worker.state) (done : q.worker.done = p.worker.done)
    {added : List Envelope} (queue : q.worker.queue = p.worker.queue ++ added) :
    Dispatched c s (sent ++ added) taken q where
  sent_eq := by rw [h.sent_eq, queue, List.append_assoc]
  calls_eq := by
    rw [chain, state, done]
    exact h.calls_eq
  length_eq := by
    rw [chain]
    exact h.length_eq
  processed_eq := by
    rw [chain]
    exact h.processed_eq

/-- A look dispatches the next envelope or none. -/
theorem look (h : Dispatched c s sent taken p) (hlook : Outcome p (.ok q)) :
    ∃ more, Dispatched c s sent (taken ++ more) q := by
  cases hlook with
  | stopped => exact ⟨[], (List.append_nil taken).symm ▸ h⟩
  | shutdown sees => exact ⟨[], (List.append_nil taken).symm ▸ h.finish (done_of_seesSet sees)⟩
  | idle _ chain state queue _ _ before after =>
    have hsame := h.same chain state (after.trans before.symm)
      (queue.trans (List.append_nil _).symm)
    rw [List.append_nil] at hsame
    exact ⟨[], (List.append_nil taken).symm ▸ hsame⟩
  | @dispatched e rest _ _ _ _ before queue dispatch =>
    obtain ⟨hlength, hprocessed⟩ := Chain.of_dispatch dispatch
    refine ⟨[e], ?_, ?_, ?_, ?_⟩
    · rw [h.sent_eq, queue]
      exact List.append_cons taken e rest
    · have hcalls := h.calls_eq
      show Chain.calls (c, s) (Chain.script _ _ p.worker.done) = _
      rw [before] at hcalls ⊢
      rw [Chain.calls_script_concat, hcalls]
      show (p.worker.chain.dispatch p.worker.state e).map Prod.snd = _
      rw [dispatch]
      rfl
    · exact hlength.trans h.length_eq
    · rw [List.length_append, ← Nat.add_assoc, ← h.processed_eq]
      exact hprocessed
  | exhausted _ before => exact ⟨[], (List.append_nil taken).symm ▸ h.finish before⟩

/-- An event dispatches the next envelope or none. -/
theorem step (h : Dispatched c s sent taken p) (hstep : p.step event = .ok q) :
    ∃ more, Dispatched c s (sent ++ WorkerEvent.sent p.worker.closed [event]) (taken ++ more) q := by
  rcases step_cases hstep with ⟨rfl, hlook⟩ | ⟨-, houtside⟩
  · rw [WorkerEvent.sent, WorkerEvent.sent, List.append_nil]
    exact h.look hlook
  · refine ⟨[], ?_⟩
    rw [List.append_nil]
    exact h.same houtside.chain houtside.state houtside.done houtside.queue

/-- A sequence of events dispatches a sequence of the next envelopes. -/
theorem run (h : Dispatched c s sent taken p) (hrun : p.run events = .ok q) :
    ∃ more, Dispatched c s (sent ++ WorkerEvent.sent p.worker.closed events) (taken ++ more) q := by
  induction events generalizing p sent taken with
  | nil =>
    cases hrun
    refine ⟨[], ?_⟩
    rw [WorkerEvent.sent, List.append_nil, List.append_nil]
    exact h
  | cons event rest ih =>
    obtain ⟨p', hstep, hrest⟩ := run_cons.mp hrun
    obtain ⟨first, hfirst⟩ := h.step hstep
    obtain ⟨more, hmore⟩ := ih hfirst hrest
    refine ⟨first ++ more, ?_⟩
    rw [sent_cons hstep, ← List.append_assoc, ← List.append_assoc]
    exact hmore

private theorem look_error {f : Fault} (h : Dispatched c s sent taken p)
    (hlook : Outcome p (.error f)) :
    ∃ e, taken ++ [e] <+: sent ∧
      Chain.calls (c, s) (Chain.script c.handlers.length (taken ++ [e]) false) = .error f := by
  cases hlook with
  | @failed e rest _ before queue dispatch =>
    refine ⟨e, ?_, ?_⟩
    · rw [h.sent_eq, queue, List.append_cons taken e rest]
      exact List.prefix_append _ _
    · have hcalls := h.calls_eq
      rw [before] at hcalls
      rw [Chain.calls_script_concat, hcalls]
      show (p.worker.chain.dispatch p.worker.state e).map Prod.snd = _
      rw [dispatch]
      rfl

/-- When a handler fails, the calls up to the one that failed are those that were to be made. -/
theorem run_error {f : Fault} (h : Dispatched c s sent taken p) (hrun : p.run events = .error f) :
    ∃ tried, tried <+: sent ++ WorkerEvent.sent p.worker.closed events ∧
      Chain.calls (c, s) (Chain.script c.handlers.length tried false) = .error f := by
  induction events generalizing p sent taken with
  | nil => cases hrun
  | cons event rest ih =>
    cases Except.bind_eq_error.mp hrun with
    | inl hstep =>
      obtain ⟨e, hprefix, hcalls⟩ := h.look_error (outcome_of_error hstep)
      exact ⟨_, hprefix.trans (List.prefix_append _ _), hcalls⟩
    | inr hrest =>
      obtain ⟨p', hstep, hrest⟩ := hrest
      obtain ⟨more, hmore⟩ := h.step hstep
      rw [sent_cons hstep, ← List.append_assoc]
      exact ih hmore hrest

end Dispatched

/-! ### The end -/

/-- A worker that is done takes no envelope. -/
theorem run_of_done (hp : p.worker.done = true) (hrun : p.run events = .ok q) :
    q.worker.done = true ∧
      q.worker.queue = p.worker.queue ++ WorkerEvent.sent p.worker.closed events := by
  induction events generalizing p with
  | nil =>
    cases hrun
    exact ⟨hp, (List.append_nil _).symm⟩
  | cons event rest ih =>
    obtain ⟨p', hstep, hrest⟩ := run_cons.mp hrun
    have hp' : p'.worker.done = true ∧
        p'.worker.queue = p.worker.queue ++ WorkerEvent.sent p.worker.closed [event] := by
      rcases step_cases hstep with ⟨rfl, hlook⟩ | ⟨-, houtside⟩
      · rw [hlook.of_done hp]
        exact ⟨hp, (List.append_nil _).symm⟩
      · exact ⟨houtside.done.trans hp, houtside.queue⟩
    rw [sent_cons hstep, ← List.append_assoc, ← hp'.2]
    exact ih hp'.1 hrest

/-- A worker that looks at a set flag is done and takes no envelope any more. -/
theorem run_of_seesSet (hp : p.seesSet = true) (hrun : p.run (.turn :: events) = .ok q) :
    q.worker.done = true ∧
      q.worker.queue = p.worker.queue ++ WorkerEvent.sent p.worker.closed events := by
  obtain ⟨p', hlook, hrest⟩ := run_cons.mp hrun
  have hp' : p' = p.worker.finish.poised := by
    rcases step_cases hlook with ⟨-, houtcome⟩ | ⟨hne, -⟩
    · exact houtcome.of_seesSet hp
    · exact absurd rfl hne
  cases hp'
  have hdone := run_of_done rfl hrest
  exact hdone

/-- The worker never looks at a flag that is set. -/
def NeverSeesSet (p : Poised η γ) (events : List WorkerEvent) : Prop :=
  ∀ before later q, events = before ++ .turn :: later → p.run before = .ok q → q.seesSet = false

/-- If the worker is done, the queue is closed and empty. -/
def Exhausted (p : Poised η γ) : Prop :=
  p.worker.done = true → p.worker.queue = [] ∧ p.worker.closed = true

private theorem Exhausted.look (h : p.Exhausted) (hsees : p.seesSet = false)
    (hlook : Outcome p (.ok q)) : q.Exhausted := by
  intro hq
  cases hlook with
  | stopped => exact h hq
  | shutdown hset => exact absurd hset (Bool.eq_false_iff.mp hsees)
  | idle _ _ _ _ _ _ _ after => exact absurd hq (Bool.eq_false_iff.mp after)
  | dispatched _ before => exact absurd hq (Bool.eq_false_iff.mp before)
  | exhausted _ _ queue closed => exact ⟨queue, closed⟩

omit [Handler η γ] in
private theorem Exhausted.outside (h : p.Exhausted) (houtside : Outside p event q) :
    q.Exhausted := by
  intro hq
  obtain ⟨hqueue, hclosed⟩ := h (houtside.done ▸ hq)
  refine ⟨?_, houtside.closed hclosed⟩
  rw [houtside.queue, hqueue, hclosed, WorkerEvent.sent_true]
  rfl

/-- A worker that never looks at a set flag is done only once the queue is closed and empty. -/
theorem Exhausted.run (h : p.Exhausted) (hnever : p.NeverSeesSet events)
    (hrun : p.run events = .ok q) : q.Exhausted := by
  induction events generalizing p with
  | nil =>
    cases hrun
    exact h
  | cons event rest ih =>
    obtain ⟨p', hstep, hrest⟩ := run_cons.mp hrun
    have hp' : p'.Exhausted := by
      rcases step_cases hstep with ⟨rfl, hlook⟩ | ⟨-, houtside⟩
      · exact h.look (hnever [] rest p rfl rfl) hlook
      · exact h.outside houtside
    refine ih hp' ?_ hrest
    intro before later r hsplit hbefore
    refine hnever (event :: before) later r ?_ (run_cons.mpr ⟨p', hstep, hbefore⟩)
    rw [hsplit]
    rfl

/-- If nobody sets the flag, the worker never looks at a set flag. -/
theorem neverSeesSet_of_unset (hp : p.worker.shutdown = false)
    (hevents : .setShutdown true ∉ events) : p.NeverSeesSet events := by
  intro before later q hsplit hrun
  have hq : q.worker.shutdown = false := by
    induction before generalizing p events with
    | nil =>
      cases hrun
      exact hp
    | cons event rest ih =>
      obtain ⟨p', hstep, hrest⟩ := run_cons.mp hrun
      rw [hsplit, List.cons_append, List.mem_cons, not_or] at hevents
      have hp' : p'.worker.shutdown = false := by
        rcases step_cases hstep with ⟨-, hlook⟩ | ⟨-, houtside⟩
        · exact hlook.kept.2.trans hp
        · exact houtside.unset hp (Ne.symm hevents.1)
      exact ih hp' hevents.2 rfl hrest
  simp [seesSet, hq]

/-! ### How long it takes -/

private theorem rank_step (hp : p.worker.closed = true) (hstep : p.step event = .ok q) :
    q.worker.done = true ∨
      q.rank + WorkerEvent.looks [event] ≤ p.rank + 3 * WorkerEvent.updates [event] := by
  rcases step_cases hstep with ⟨rfl, hlook⟩ | ⟨hturn, houtside⟩
  · exact hlook.rank_lt hp
  · right
    have hlooks : WorkerEvent.looks [event] = 0 := by
      cases event with
      | turn => exact absurd rfl hturn
      | _ => rfl
    rw [hlooks]
    exact houtside.rank hp

/-- Once the queue is closed the worker is done after three looks for each envelope and each update
of the flag, and nine more. -/
theorem done_of_looks (hp : p.worker.closed = true) (hrun : p.run events = .ok q)
    (hlooks : p.rank + 3 * WorkerEvent.updates events ≤ WorkerEvent.looks events) :
    q.worker.done = true := by
  induction events generalizing p with
  | nil =>
    -- a worker that goes on has a look left
    have hzero : p.rank ≤ 0 := hlooks
    have hpos := p.rank_pos
    omega
  | cons event rest ih =>
    obtain ⟨p', hstep, hrest⟩ := run_cons.mp hrun
    cases rank_step hp hstep with
    | inl hdone => exact (run_of_done hdone hrest).1
    | inr hrank =>
      apply ih (closed_step hstep hp) hrest
      have hlooks' : WorkerEvent.looks (event :: rest) =
          WorkerEvent.looks [event] + WorkerEvent.looks rest := by
        cases event <;> simp [WorkerEvent.looks, Nat.add_comm]
      have hupdates : WorkerEvent.updates (event :: rest) =
          WorkerEvent.updates [event] + WorkerEvent.updates rest := by
        cases event <;> simp [WorkerEvent.updates, Nat.add_comm]
      omega

/-! ### The whole run -/

/-- Among whatever events, the worker starts every handler in order, dispatches the envelopes that
were sent up to some point, each once and in order, and stops every handler in order when it is done;
it counts what it dispatches. When it looks at a flag that is set, it is done and dispatches nothing
more. When it is done without having looked at one, it has dispatched everything that was sent. Once
the queue is closed, enough looks bring it to its end. Only a handler that fails ends a run early. -/
theorem run_dispatches (c : Chain η) (s : γ) (queue : List Envelope) (closed shutdown owned : Bool)
    (events : List WorkerEvent) :
    let start := (Worker.begin c s queue closed shutdown owned).poised
    let n := c.handlers.length
    let sent := queue ++ WorkerEvent.sent closed events
    (∀ f, start.run events = .error f →
      ∃ tried, tried <+: sent ∧ Chain.calls (c, s) (Chain.script n tried false) = .error f) ∧
    ∀ p, start.run events = .ok p → ∃ taken,
      sent = taken ++ p.worker.queue ∧
      Chain.calls (c, s) (Chain.script n taken p.worker.done) =
        .ok (p.worker.chain, p.worker.state) ∧
      p.worker.chain.processed = c.processed + taken.length ∧
      (∀ before later q, events = before ++ .turn :: later → start.run before = .ok q →
        q.seesSet = true → p.worker.done = true ∧
          queue ++ WorkerEvent.sent closed before = taken ++ q.worker.queue) ∧
      (p.worker.done = true → start.NeverSeesSet events → taken = sent) ∧
      ∀ later q, p.worker.closed = true → p.run later = .ok q →
        3 * (p.worker.queue.length + WorkerEvent.updates later + 3) ≤ WorkerEvent.looks later →
          q.worker.done = true := by
  intro start n sent
  have hbegin : Dispatched c s queue [] start := dispatched_begin c s queue closed shutdown owned
  constructor
  · intro f hrun
    exact hbegin.run_error hrun
  · intro p hrun
    obtain ⟨taken, htaken⟩ := hbegin.run hrun
    rw [List.nil_append] at htaken
    refine ⟨taken, htaken.sent_eq, htaken.calls_eq, htaken.processed_eq, ?_, ?_, ?_⟩
    · intro before later q hsplit hbefore hsees
      rw [hsplit] at hrun
      rw [run_append, hbefore] at hrun
      obtain ⟨hdone, hqueue⟩ := run_of_seesSet hsees hrun
      refine ⟨hdone, ?_⟩
      -- what the queue holds in the end is what it held at the look and what was sent later
      have hsent := htaken.sent_eq
      rw [hqueue, hsplit, sent_append hbefore, ← List.append_assoc, ← List.append_assoc] at hsent
      exact List.append_cancel_right hsent
    · intro hdone hnever
      have hexhausted : p.Exhausted := by
        apply Exhausted.run _ hnever hrun
        intro h
        cases h
      have hsent := htaken.sent_eq
      rw [(hexhausted hdone).1, List.append_nil] at hsent
      exact hsent.symm
    · intro later q hclosed hlater hlooks
      apply done_of_looks hclosed hlater
      have hrank := p.rank_le
      omega

/-- A handler that claims nothing and writes down what it is called for. -/
structure Scribe where
  position : Nat

instance : Handler Scribe (List Call) where
  name _ := "scribe"
  start h log := (h, log ++ [.start h.position])
  handle h log e := .ok (false, h, log ++ [.dispatch e])
  stop h log := (h, log ++ [.stop h.position])

/-- An envelope without a payload. -/
def tagged (tag : UInt32) : Envelope := ⟨tag, 0, 0, "okex", []⟩

/-- The owner of the flag goes away while an envelope is on its way, and the worker dispatches it and
the one that is sent after it. -/
theorem run_dispatches_unowned :
    let start := (Worker.begin ⟨[Scribe.mk 0], 0⟩ [] [] false false true).poised
    let events : List WorkerEvent :=
      [.send (tagged 1), .turn, .dropShutdown, .turn, .turn, .turn, .turn, .send (tagged 2),
        .closeQueue, .turn, .turn, .turn, .turn, .turn, .turn]
    ∃ p, start.run events = .ok p ∧ p.worker.done = true ∧ p.worker.queue = [] ∧
      p.worker.state = [.start 0, .dispatch (tagged 1), .dispatch (tagged 2), .stop 0] ∧
      p.worker.chain.processed = 2 := by
  intro start events
  obtain ⟨p, hrun, hdone⟩ : ∃ p, start.run events = .ok p ∧ p.worker.done = true :=
    Except.any_toOption.mp (by rfl)
  obtain ⟨taken, hsent, hcalls, hprocessed, -, hall, -⟩ :=
    (run_dispatches ⟨[Scribe.mk 0], 0⟩ [] [] false false true events).2 p hrun
  have hnever : start.NeverSeesSet events := neverSeesSet_of_unset rfl (by simp [events])
  have htaken : taken = [tagged 1, tagged 2] := hall hdone hnever
  rw [htaken] at hsent hprocessed
  rw [htaken, hdone] at hcalls
  refine ⟨p, hrun, hdone, ?_, ?_, hprocessed⟩
  · have hqueue : [tagged 1, tagged 2] ++ [] = [tagged 1, tagged 2] ++ p.worker.queue := hsent
    exact (List.append_cancel_left hqueue).symm
  · have hstate := congrArg (fun x => x.toOption.map Prod.snd) hcalls
    exact (Option.some.inj hstate).symm

/-- The flag can be set between the closing of the queue and its end: nobody touches it while the
queue is open, and still the second envelope is never dispatched. -/
theorem undispatched_after_close :
    let start := (Worker.begin ⟨[Scribe.mk 0], 0⟩ [] [] false false true).poised
    let opened : List WorkerEvent := [.send (tagged 1), .send (tagged 2)]
    let closed : List WorkerEvent := [.turn, .turn, .turn, .setShutdown true, .turn]
    (∀ event ∈ opened, ∀ b, event ≠ .setShutdown b) ∧
    ∃ p, start.run (opened ++ .closeQueue :: closed) = .ok p ∧ p.worker.done = true ∧
      p.worker.queue = [tagged 2] ∧
      p.worker.state = [.start 0, .dispatch (tagged 1), .stop 0] := by
  refine ⟨?_, _, rfl, rfl, rfl, rfl⟩
  intro event hevent b
  simp only [List.mem_cons, List.not_mem_nil, or_false] at hevent
  rcases hevent with rfl | rfl
  · intro h
    cases h
  · intro h
    cases h

end TradeDesk.Poised
