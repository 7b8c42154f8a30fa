import TradeDesk.Proofs.Console.Lines

/-!
# The reader

The reader sends the envelopes of the lines that hold one, up to the first line that is not UTF-8. So
nothing is lost of an input exactly if no line from there on holds an envelope.
-/

namespace TradeDesk.Console

open Json

/-- Whether a line is UTF-8. -/
def isText (bytes : List UInt8) : Bool := (ofUtf8? bytes).isSome

/-- The envelope that a line holds: the line is UTF-8, and without the white space around it, it is
not empty, does not begin with a number sign, and is a frame. -/
inductive Holds (bytes : List UInt8) : Envelope → Prop where
  | frame {line : String} {f : Frame} (hline : ofUtf8? bytes = some line)
      (hne : trim line.toList ≠ []) (hmark : (trim line.toList).head? ≠ some '#')
      (hframe : Frame.parse? (utf8 (String.ofList (trim line.toList))) = some f) :
    Holds bytes f.envelope

/-- The envelope of a line that is sent. -/
def envelope? (bytes : List UInt8) : Option Envelope :=
  match Reading.ofBytes bytes with
  | .send e => some e
  | _ => none

/-- The envelopes that are sent of an input, up to the line that ends it. -/
def sends : List (List UInt8) → List Envelope
  | [] => []
  | bytes :: rest =>
    match Reading.ofBytes bytes with
    | .stop => []
    | .skip => sends rest
    | .send e => e :: sends rest

variable {bytes : List UInt8} {input : List (List UInt8)} {e : Envelope} {line : String}

/-- What a line of text holds. -/
theorem message?_eq_some_iff :
    message? line = some e ↔
      trim line.toList ≠ [] ∧ (trim line.toList).head? ≠ some '#' ∧
        ∃ f, Frame.parse? (utf8 (String.ofList (trim line.toList))) = some f ∧ f.envelope = e := by
  unfold message?
  split
  · next h => simp [h]
  · next h => simp [h]
  · next hne hmark =>
    have hhead : (trim line.toList).head? ≠ some '#' := by
      intro h
      obtain ⟨rest, hrest⟩ := List.head?_eq_some_iff.mp h
      exact hmark rest hrest
    rw [Option.map_eq_some_iff]
    exact ⟨fun h ↦ ⟨hne, hhead, h⟩, fun h ↦ h.2.2⟩

theorem Reading.ofBytes_eq_send_iff : Reading.ofBytes bytes = .send e ↔ Holds bytes e := by
  unfold Reading.ofBytes
  constructor
  · intro h
    split at h
    · cases h
    · next line hline =>
      split at h
      · cases h
      · next e' he =>
        cases h
        obtain ⟨hne, hmark, f, hf, rfl⟩ := message?_eq_some_iff.mp he
        exact .frame hline hne hmark hf
  · rintro ⟨hline, hne, hmark, hf⟩
    rw [hline]
    simp only [message?_eq_some_iff.mpr ⟨hne, hmark, _, hf, rfl⟩]

/-- Only a line that is not UTF-8 ends the input. -/
theorem Reading.ofBytes_ne_stop_iff : Reading.ofBytes bytes ≠ .stop ↔ isText bytes = true := by
  unfold Reading.ofBytes isText
  split
  · next h => simp [h]
  · next h =>
    split
    · simp [h]
    · simp [h]

/-- What is sent of a line is the envelope that it holds. -/
theorem envelope?_eq_some_iff : envelope? bytes = some e ↔ Holds bytes e := by
  rw [← Reading.ofBytes_eq_send_iff, envelope?]
  split
  · next e' h => rw [h, Option.some.injEq, Reading.send.injEq]
  · next h => exact iff_of_false nofun (h e)

theorem envelope?_eq_none_iff : envelope? bytes = none ↔ ∀ e, ¬ Holds bytes e := by
  simp [Option.eq_none_iff_forall_ne_some, envelope?_eq_some_iff]

/-- What is sent are the envelopes of the lines before the first that is not UTF-8. -/
theorem sends_eq (input : List (List UInt8)) :
    sends input = (input.takeWhile isText).filterMap envelope? := by
  induction input with
  | nil => rfl
  | cons bytes rest ih =>
    unfold sends
    cases h : Reading.ofBytes bytes with
    | stop =>
      have htext : ¬ isText bytes = true := fun ht ↦ Reading.ofBytes_ne_stop_iff.mpr ht h
      rw [List.takeWhile_cons_of_neg htext, List.filterMap_nil]
    | skip =>
      have htext : isText bytes = true := Reading.ofBytes_ne_stop_iff.mp (by rw [h]; nofun)
      have hnone : envelope? bytes = none := by rw [envelope?, h]
      rw [List.takeWhile_cons_of_pos htext, List.filterMap_cons_none hnone, ih]
    | send e =>
      have htext : isText bytes = true := Reading.ofBytes_ne_stop_iff.mp (by rw [h]; nofun)
      have hsome : envelope? bytes = some e := by rw [envelope?, h]
      rw [List.takeWhile_cons_of_pos htext, List.filterMap_cons_some hsome, ih]

/-- Everything is sent exactly if no line from the first that is not UTF-8 on holds an envelope. -/
theorem sends_eq_filterMap_iff :
    sends input = input.filterMap envelope? ↔
      ∀ bytes ∈ input.dropWhile isText, ∀ e, ¬ Holds bytes e := by
  have hsplit : input.filterMap envelope? =
      sends input ++ (input.dropWhile isText).filterMap envelope? := by
    rw [sends_eq, ← List.filterMap_append, List.takeWhile_append_dropWhile]
  rw [hsplit, List.self_eq_append_right, List.filterMap_eq_nil_iff]
  simp only [envelope?_eq_none_iff]

/-! ### What a desk is told -/

namespace Service

/-- A second look finds nothing more to write. -/
theorem drain_drain (w : Service) : w.drain.2.drain = ([], w.drain.2) := rfl

end Service

namespace Outcome

variable {w : Service} {written : List (List UInt8)}

/-- Lets a desk serve envelopes. -/
def ofEnvelopes (w : Service) : List Envelope → Outcome
  | [] => ofService w []
  | e :: rest =>
    let (written, w) := w.drain
    match w.feed e with
    | .ok w => (ofEnvelopes w rest).after written
    | .error _ => broken.after written

theorem after_after (o : Outcome) (first second : List (List UInt8)) :
    (o.after second).after first = o.after (first ++ second) := by
  simp [after]

theorem after_finished (w : Service) (first second : List (List UInt8)) :
    (ofService.finished w second).after first = ofService.finished w (first ++ second) := by
  unfold ofService.finished
  cases w.finish with
  | ok w => simp [after]
  | error f => exact after_after broken first second

theorem ofService_nil (w : Service) : ofService w [] = ofService.finished w.drain.2 w.drain.1 := rfl

theorem ofService_cons (w : Service) (bytes : List UInt8) (rest : List (List UInt8)) :
    ofService w (bytes :: rest) =
      match Reading.ofBytes bytes with
      | .stop => ofService.finished w.drain.2 w.drain.1
      | .skip => (ofService w.drain.2 rest).after w.drain.1
      | .send e =>
        match w.drain.2.feed e with
        | .ok w' => (ofService w' rest).after w.drain.1
        | .error _ => broken.after w.drain.1 := rfl

/-- What waits to be written may be written before the next line is looked at. -/
theorem after_drain (w : Service) (input : List (List UInt8)) :
    (ofService w.drain.2 input).after w.drain.1 = ofService w input := by
  cases input with
  | nil => rw [ofService_nil, ofService_nil, w.drain_drain, after_finished, List.append_nil]
  | cons bytes rest =>
    rw [ofService_cons, ofService_cons, w.drain_drain]
    cases Reading.ofBytes bytes with
    | stop => simp only [after_finished, List.append_nil]
    | skip => simp only [after_after, List.append_nil]
    | send e =>
      simp only
      cases w.drain.2.feed e with
      | ok w' => simp only [after_after, List.append_nil]
      | error f => simp only [after_after, List.append_nil]

/-- A desk that serves an input serves the envelopes that are sent of it. -/
theorem ofService_eq (w : Service) (input : List (List UInt8)) :
    ofService w input = ofEnvelopes w (sends input) := by
  induction input generalizing w with
  | nil => rfl
  | cons bytes rest ih =>
    rw [ofService_cons, sends]
    cases Reading.ofBytes bytes with
    | stop => rfl
    | skip => exact (after_drain w rest).trans (ih w)
    | send e =>
      simp only [ofEnvelopes, ih]

end Outcome

/-- A stream is cut into lines at its line feeds, and a carriage return at the end of a line makes no
difference. A desk serves, in order and once each, the envelopes of the lines before the first that is
not UTF-8; a line before it that holds none is passed over. What is served is all that the input holds
exactly if no line from there on holds an envelope. -/
theorem serves_held_lines (input : List (List UInt8)) :
    ((∀ bytes ∈ input, 0x0A ∉ bytes) → lines (input.flatMap (· ++ [0x0A])) = input) ∧
      (∀ bytes, Reading.ofBytes (bytes ++ [0x0D]) = Reading.ofBytes bytes) ∧
      (∀ w, Outcome.ofService w input = Outcome.ofEnvelopes w (sends input)) ∧
      (∀ bytes e, envelope? bytes = some e ↔ Holds bytes e) ∧
      sends input = (input.takeWhile isText).filterMap envelope? ∧
      (sends input = input.filterMap envelope? ↔
        ∀ bytes ∈ input.dropWhile isText, ∀ e, ¬ Holds bytes e) :=
  ⟨lines_flatMap, Reading.ofBytes_concat_cr, fun w ↦ Outcome.ofService_eq w input,
    fun _ _ ↦ envelope?_eq_some_iff, sends_eq input, sends_eq_filterMap_iff⟩

/-- A line that is not UTF-8 hides a line behind it: a desk serves the input as if that were not
there. -/
theorem sends_hides_line :
    let line := utf8
      "\x7b\"msg_type\":2012,\"req_serial\":0,\"source\":\"okex\",\"payload\":\x7b\x7d\x7d"
    let e : Envelope := ⟨2012, 0, 0, "okex", utf8 "\x7b\x7d"⟩
    Holds line e ∧ [line, [0xFF, 0x7B, 0x7D], line].filterMap envelope? = [e, e] ∧
      sends [line, [0xFF, 0x7B, 0x7D], line] = [e] ∧
      ∀ w, Outcome.ofService w [line, [0xFF, 0x7B, 0x7D], line] = Outcome.ofService w [line] := by
  intro line e
  have hline : Reading.ofBytes line = .send e := by decide +kernel
  have hbroken : Reading.ofBytes [0xFF, 0x7B, 0x7D] = .stop := by decide +kernel
  have hsends : sends [line, [0xFF, 0x7B, 0x7D], line] = [e] := by simp [sends, hline, hbroken]
  refine ⟨Reading.ofBytes_eq_send_iff.mp hline, ?_, hsends, fun w ↦ ?_⟩
  · simp [envelope?, hline, hbroken]
  · have hfirst : sends [line] = [e] := by simp [sends, hline]
    rw [Outcome.ofService_eq, Outcome.ofService_eq, hsends, hfirst]

end TradeDesk.Console
