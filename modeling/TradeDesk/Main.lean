import TradeDesk.Console.Program

/-!
# The program

Reads arguments, files and the environment, and lets a desk serve the lines of its input as they
come.

Spec: `SPEC_FULL.md` §B.5. Follows `main`.
-/

namespace TradeDesk.Console

/-- The bytes of a file, if it can be read. -/
def fileBytes? (path : String) : IO (Option ByteArray) := do
  try
    return some (← IO.FS.readBinFile path)
  catch _ => return none

/-- The variables of the environment. -/
def environment : IO (List (String × String)) := do
  let bytes := ((← fileBytes? "/proc/self/environ").getD .empty).data.toList
  return (bytes.splitOn 0).filterMap fun entry =>
    match entry.span (· ≠ 0x3D) with
    | (name, _ :: value) => do return (← Json.ofUtf8? name, ← Json.ofUtf8? value)
    | _ => none

/-- The texts of those files that are there. -/
def fileTexts (paths : List String) : IO (List (String × String)) := do
  let found ← paths.filterMapM fun path => do
    return ((← fileBytes? path).bind String.fromUTF8?).map (path, ·)
  return found

/-- Writes lines. -/
def writeLines (lines : List (List UInt8)) : IO Unit := do
  let out ← IO.getStdout
  for line in lines do
    out.write ⟨(line ++ [0x0A]).toArray⟩
  out.flush

/-- One line of a stream without its line feed; none at the end. -/
partial def readLine (input : IO.FS.Stream) (line : ByteArray) : IO (Option ByteArray) := do
  match (← input.read 1).toList with
  | [] => return if line.isEmpty then none else some line
  | 0x0A :: _ => return some line
  | b :: _ => readLine input (line.push b)

/-- Serves a stream of lines. The answer is the exit code. -/
partial def serveStream (w : Service) (input : IO.FS.Stream) : IO UInt32 := do
  let (written, w) := w.drain
  writeLines written
  let line := (← readLine input .empty).map fun bytes => Reading.ofBytes bytes.data.toList
  match line.getD .stop with
  | .stop =>
    let outcome := Outcome.ofService w []
    writeLines outcome.output
    return outcome.exit.toUInt32
  | .skip => serveStream w input
  | .send e =>
    match w.feed e with
    | .ok w => serveStream w input
    | .error _ => return Outcome.broken.exit.toUInt32

/-- The stream of messages: a replay file, or standard input. A file that cannot be opened holds
none. -/
def inputStream : Option String → IO IO.FS.Stream
  | none => IO.getStdin
  | some path => do
    let empty ← IO.mkRef { : IO.FS.Stream.Buffer }
    try
      return .ofHandle (← IO.FS.Handle.mk path .read)
    catch _ => return .ofBuffer empty

/-- Says why the program does not start. The answer is the exit code. -/
def refuse (e : DeskError) : IO UInt32 := do
  IO.eprintln ("Error: " ++ e.message)
  return (Outcome.ofError e).exit.toUInt32

end TradeDesk.Console

open TradeDesk Console in
/-- The program. -/
def main (args : List String) : IO UInt32 := do
  let invocation := Invocation.ofArguments args
  match invocation, invocation.outcome? with
  | .serve options, _ =>
    let files ← fileTexts (configPlaces options.config)
    match loadSettings files options.config (← environment) with
    | .error e => refuse e
    | .ok s =>
      match s.engine with
      | .error e => refuse e
      | .ok e =>
        match Service.start? s e with
        | none => return Outcome.broken.exit.toUInt32
        | some w => serveStream w (← inputStream options.replay)
  | _, some outcome =>
    writeLines outcome.output
    return outcome.exit.toUInt32
  | _, none => return 0
