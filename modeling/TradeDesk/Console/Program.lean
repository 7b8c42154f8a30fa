import TradeDesk.Console.Arguments
import TradeDesk.Console.Files
import TradeDesk.Engine

/-!
# Serving messages

Messages come as lines of text, one frame a line; requests go out in the same form. Blank lines,
lines that begin with a number sign and lines that are no frame are passed over. A line that is not
UTF-8 ends the input.

Spec: `SPEC_FULL.md` §B.5. Follows `read_inbound`, `write_outbound` and `main`.
-/

namespace TradeDesk.Console

/-- White space around a line. -/
def isSpace (c : Char) : Bool :=
  (0x09 ≤ c.toNat && c.toNat ≤ 0x0D) || c = ' ' || c.toNat = 0x85 || c.toNat = 0xA0 ||
    c.toNat = 0x1680 || (0x2000 ≤ c.toNat && c.toNat ≤ 0x200A) || c.toNat = 0x2028 ||
    c.toNat = 0x2029 || c.toNat = 0x202F || c.toNat = 0x205F || c.toNat = 0x3000

/-- Text without the white space around it. -/
def trim (s : List Char) : List Char :=
  ((s.dropWhile isSpace).reverse.dropWhile isSpace).reverse

/-- The message of a line, if it holds one. -/
def message? (line : String) : Option Envelope :=
  match trim line.toList with
  | [] => none
  | '#' :: _ => none
  | s => (Frame.parse? (Json.utf8 (String.ofList s))).map Frame.envelope

/-- What comes of a line of the input. -/
inductive Reading where
  /-- The line is passed over. -/
  | skip
  /-- The line holds a message, which is sent. -/
  | send (e : Envelope)
  /-- The line ends the input. -/
  | stop
  deriving DecidableEq

/-- Reads a line. Follows one round of the loop in `read_inbound`. -/
def Reading.ofBytes (bytes : List UInt8) : Reading :=
  match Json.ofUtf8? bytes with
  | none => .stop
  | some line =>
    match message? line with
    | none => .skip
    | some e => .send e

/-- The lines of text; the last may lack its line feed. `line` is the one being read, reversed. -/
def linesFrom (line : List UInt8) : List UInt8 → List (List UInt8)
  | [] => if line.isEmpty then [] else [line.reverse]
  | 0x0A :: rest => line.reverse :: linesFrom [] rest
  | b :: rest => linesFrom (b :: line) rest

/-- The lines of text. -/
def lines (bytes : List UInt8) : List (List UInt8) := linesFrom [] bytes

/-- A desk at work. -/
abbrev Service := Worker (Link MavgStrategy) Desk

namespace Service

/-- A desk with its handlers started. -/
def start (e : Engine MavgStrategy) : Service := .begin e.chain e.desk [] false false true

/-- A queue for more messages than this cannot be made. -/
def queueLimit : UInt64 := 2305843009213693951

/-- The engine of settings at work, if its queue can be made. -/
def start? (s : Settings) (e : Engine MavgStrategy) : Option Service :=
  if queueLimit < s.queueCapacity then none else some (start e)

/-- One message. -/
def feed (w : Service) (e : Envelope) : Except Fault Service := w.run [.send e, .turn]

/-- The end of the input. -/
def finish (w : Service) : Except Fault Service := do (← w.step .closeQueue).runOut

/-- The requests that wait to go out as lines, and the desk without them. -/
def drain (w : Service) : List (List UInt8) × Service :=
  (w.state.outbox.sent.toList.filterMap fun e => (Frame.ofEnvelope e).toOption.map Frame.line,
   { w with state := { w.state with outbox := { w.state.outbox with sent := #[] } } })

end Service

/-- How a run of the program ends: its exit code, and the lines it has written. -/
structure Outcome where
  exit : UInt8
  output : List (List UInt8)
  deriving DecidableEq, Repr

namespace Outcome

/-- The outcome with lines that were written before. -/
def after (o : Outcome) (before : List (List UInt8)) : Outcome :=
  { o with output := before ++ o.output }

/-- The program refuses to start. -/
def refused : Outcome := ⟨1, []⟩

/-- The program broke off. -/
def broken : Outcome := ⟨101, []⟩

/-- The program does not start. -/
def ofError : DeskError → Outcome
  | .arrayBounds => broken
  | _ => refused

/-- Lets a desk serve what is left of the input. -/
def ofService (w : Service) (input : List (List UInt8)) : Outcome :=
  let (written, w) := w.drain
  match input with
  | [] => finished w written
  | bytes :: rest =>
    match Reading.ofBytes bytes with
    | .stop => finished w written
    | .skip => (ofService w rest).after written
    | .send e =>
      match w.feed e with
      | .ok w => (ofService w rest).after written
      | .error _ => broken.after written
where
  /-- The outcome once the input has ended. -/
  finished (w : Service) (written : List (List UInt8)) : Outcome :=
    match w.finish with
    | .ok w => ⟨0, written ++ w.drain.1⟩
    | .error _ => broken.after written

/-- Serves a whole input with settings. -/
def serve (settings : Except DeskError Settings) (input : List UInt8) : Outcome :=
  match settings with
  | .error e => ofError e
  | .ok s =>
    match s.engine with
    | .error e => ofError e
    | .ok e =>
      match Service.start? s e with
      | none => broken
      | some w => ofService w (lines input)

/-- Serves in a directory: a replay file, which holds nothing if it is not there, or standard
input. -/
def serveIn (files : Files) (o : Options) (env : List (String × String)) (stdin : List UInt8) :
    Outcome :=
  let texts := (configPlaces o.config).filterMap fun path =>
    ((files.read? path).bind Json.ofUtf8?).map (path, ·)
  let input := match o.replay with
    | some path => (files.read? path).getD []
    | none => stdin
  serve (loadSettings texts o.config env) input

end Outcome

/-- The outcome of what needs no settings. -/
def Invocation.outcome? : Invocation → Option Outcome
  | .serve _ => none
  | .help long => some ⟨0, (if long then longHelp else shortHelp).map Json.utf8⟩
  | .version => some ⟨0, [Json.utf8 versionText]⟩
  | .misuse => some ⟨2, []⟩

end TradeDesk.Console
