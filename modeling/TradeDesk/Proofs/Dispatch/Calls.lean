import TradeDesk.Dispatch.Chain
import TradeDesk.Proofs.Fault

/-!
# Calls of handlers

Starting and stopping a chain is a call of one handler after another. What is done with a chain is
told by the list of calls, and calls in a list are made one after another.
-/

namespace TradeDesk

/-- A call that is made on a chain. -/
inductive Call where
  /-- Starts the handler at a position of the chain. -/
  | start (i : Nat)
  /-- Walks an envelope through the chain. -/
  | dispatch (e : Envelope)
  /-- Stops the handler at a position of the chain. -/
  | stop (i : Nat)
  deriving DecidableEq, Repr

namespace Chain

variable {η γ : Type} [Handler η γ]

/-- Calls the handler at a position of a chain. -/
def callAt (f : η → γ → η × γ) (x : Chain η × γ) (i : Nat) : Chain η × γ :=
  match x.1.handlers[i]? with
  | none => x
  | some h =>
    let (h, s) := f h x.2
    ({ x.1 with handlers := x.1.handlers.set i h }, s)

/-- Makes a call. -/
def call (x : Chain η × γ) : Call → Except Fault (Chain η × γ)
  | .start i => .ok (callAt Handler.start x i)
  | .dispatch e => (x.1.dispatch x.2 e).map Prod.snd
  | .stop i => .ok (callAt Handler.stop x i)

/-- Makes calls one after another, up to the first that fails. -/
def calls (x : Chain η × γ) (script : List Call) : Except Fault (Chain η × γ) :=
  script.foldlM call x

/-- Starts every one of `n` handlers in order, dispatches envelopes, and in the end stops every
handler in order. -/
def script (n : Nat) (taken : List Envelope) (stopped : Bool) : List Call :=
  (List.range n).map .start ++ taken.map .dispatch ++
    if stopped then (List.range n).map .stop else []

omit [Handler η γ] in
private theorem foldl_callAt_from (f : η → γ → η × γ) (processed : Nat) (called rest : List η)
    (s : γ) :
    (List.range' called.length rest.length).foldl (callAt f) (⟨called ++ rest, processed⟩, s) =
      (⟨called ++ (each f s rest).1, processed⟩, (each f s rest).2) := by
  induction rest generalizing called s with
  | nil => rfl
  | cons h rest ih =>
    have hcall : callAt f (⟨called ++ h :: rest, processed⟩, s) called.length =
        (⟨(called ++ [(f h s).1]) ++ rest, processed⟩, (f h s).2) := by
      simp [callAt]
    have hrest := ih (called ++ [(f h s).1]) (f h s).2
    rw [List.length_append, List.length_singleton] at hrest
    rw [List.length_cons, List.range'_succ, List.foldl_cons, hcall, hrest, each,
      List.append_assoc, List.singleton_append]

omit [Handler η γ] in
/-- Calling every handler is calling the handlers at all positions in order. -/
theorem foldl_callAt (f : η → γ → η × γ) (c : Chain η) (s : γ) :
    (List.range c.handlers.length).foldl (callAt f) (c, s) =
      ({ c with handlers := (each f s c.handlers).1 }, (each f s c.handlers).2) := by
  rw [List.range_eq_range']
  exact foldl_callAt_from f c.processed [] c.handlers s

/-- Calls of handlers one by one never fail. -/
private theorem foldlM_ok {α β : Type} (f : β → α → β) (l : List α) (b : β) :
    l.foldlM (fun b a => (Except.ok (f b a) : Except Fault β)) b = .ok (l.foldl f b) := by
  induction l generalizing b with
  | nil => rfl
  | cons a rest ih => exact ih (f b a)

/-- Starting a chain is a list of calls. -/
theorem calls_starts (c : Chain η) (s : γ) :
    calls (c, s) ((List.range c.handlers.length).map .start) = .ok (c.start s) := by
  have hcalls := foldlM_ok (callAt Handler.start) (List.range c.handlers.length) (c, s)
  rw [foldl_callAt] at hcalls
  rw [calls, List.foldlM_map]
  exact hcalls

/-- Stopping a chain is a list of calls. -/
theorem calls_stops (c : Chain η) (s : γ) :
    calls (c, s) ((List.range c.handlers.length).map .stop) = .ok (c.stop s) := by
  have hcalls := foldlM_ok (callAt Handler.stop) (List.range c.handlers.length) (c, s)
  rw [foldl_callAt] at hcalls
  rw [calls, List.foldlM_map]
  exact hcalls

/-- Some calls and then others. -/
theorem calls_append (x : Chain η × γ) (a b : List Call) :
    calls x (a ++ b) = calls x a >>= fun y => calls y b :=
  List.foldlM_append

/-- One more envelope. -/
theorem calls_script_concat (x : Chain η × γ) (n : Nat) (taken : List Envelope) (e : Envelope) :
    calls x (script n (taken ++ [e]) false) =
      calls x (script n taken false) >>= fun y => call y (.dispatch e) := by
  have hscript : script n (taken ++ [e]) false = script n taken false ++ [.dispatch e] := by
    simp [script]
  rw [hscript, calls_append]
  apply bind_congr
  intro y
  simp only [calls, List.foldlM_cons, List.foldlM_nil, bind_pure]

/-- The end. -/
theorem calls_script_true (x : Chain η × γ) (n : Nat) (taken : List Envelope) :
    calls x (script n taken true) =
      calls x (script n taken false) >>= fun y => calls y ((List.range n).map .stop) := by
  have hscript : script n taken true = script n taken false ++ (List.range n).map .stop := by
    simp [script]
  rw [hscript, calls_append]

/-! ### The length of a chain -/

omit [Handler η γ] in
private theorem length_each (f : η → γ → η × γ) (s : γ) (l : List η) :
    (each f s l).1.length = l.length := by
  induction l generalizing s with
  | nil => rfl
  | cons h rest ih => exact congrArg (· + 1) (ih _)

/-- No handler is lost at the start. -/
theorem length_start (c : Chain η) (s : γ) : (c.start s).1.handlers.length = c.handlers.length :=
  length_each _ s c.handlers

/-- No handler is lost at the end. -/
theorem length_stop (c : Chain η) (s : γ) : (c.stop s).1.handlers.length = c.handlers.length :=
  length_each _ s c.handlers

private theorem length_walk {e : Envelope} {s s' : γ} {l l' : List η} {claimer : Option String}
    (h : walk e s l = .ok (claimer, l', s')) : l'.length = l.length := by
  induction l generalizing claimer s s' l' with
  | nil =>
    cases h
    rfl
  | cons first rest ih =>
    obtain ⟨⟨claimed, first', s₁⟩, -, h⟩ := Except.bind_eq_ok.mp h
    cases claimed with
    | true =>
      cases h
      rfl
    | false =>
      obtain ⟨⟨claimer', rest', s₂⟩, hrest, h⟩ := Except.bind_eq_ok.mp h
      cases h
      exact congrArg (· + 1) (ih hrest)

/-- No handler is lost when an envelope is dispatched, and the envelope is counted. -/
theorem of_dispatch {c c' : Chain η} {s s' : γ} {e : Envelope} {claimer : Option String}
    (h : c.dispatch s e = .ok (claimer, c', s')) :
    c'.handlers.length = c.handlers.length ∧ c'.processed = c.processed + 1 := by
  obtain ⟨⟨claimer', handlers, s₁⟩, hwalk, h⟩ := Except.bind_eq_ok.mp h
  cases h
  exact ⟨length_walk hwalk, rfl⟩

end Chain

end TradeDesk
