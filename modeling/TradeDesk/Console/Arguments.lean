/-!
# The command line

What a list of arguments asks for: to serve messages, with files named or not, or to say what the
program is. An option is given once at most. Its value is the next argument, or follows it in the
same one; a value of its own does not begin with a hyphen, except for a hyphen alone.

Spec: `SPEC_FULL.md` §B.5. Follows `Cli`.
-/

namespace TradeDesk.Console

/-- The files that serving messages uses: the settings, and the messages when they do not come from
standard input. -/
structure Options where
  config : Option String := none
  replay : Option String := none
  deriving DecidableEq, Repr

/-- What is asked for. -/
inductive Invocation where
  | serve (options : Options)
  /-- The usage, in short or at length. -/
  | help (long : Bool)
  | version
  /-- The arguments make no sense. -/
  | misuse
  deriving DecidableEq, Repr

namespace Options

/-- An option that takes a value. -/
inductive Name where
  | config
  | replay
  deriving DecidableEq, Repr

/-- Gives an option its value, which must not be empty, nor its second. -/
def set? (o : Options) (name : Name) (value : String) : Option Options :=
  if value = "" then none
  else
    match name, o.config, o.replay with
    | .config, none, _ => some { o with config := some value }
    | .replay, _, none => some { o with replay := some value }
    | _, _, _ => none

end Options

/-- What a single argument is. -/
inductive Argument where
  | help (long : Bool)
  | version
  /-- An option, with its value if that follows in the same argument. -/
  | option (name : Options.Name) (value : Option String)
  /-- Two hyphens, after which there are no more options. -/
  | endOfOptions
  | unknown
  deriving DecidableEq, Repr

namespace Argument

/-- The value after an option's letter: an equals sign between them is left out. -/
def attached : List Char → Option String
  | [] => none
  | '=' :: value => some (String.ofList value)
  | value => some (String.ofList value)

/-- The option of a long name. -/
def long (name : List Char) (value : Option String) : Argument :=
  match String.ofList name, value with
  | "help", none => .help true
  | "version", none => .version
  | "config", value => .option .config value
  | "replay", value => .option .replay value
  | _, _ => .unknown

/-- Reads one argument. -/
def ofText (s : String) : Argument :=
  match s.toList with
  | ['-', '-'] => .endOfOptions
  | '-' :: '-' :: rest =>
    match rest.span (· ≠ '=') with
    | (name, []) => long name none
    | (name, _ :: value) => long name (some (String.ofList value))
  | '-' :: 'h' :: _ => .help false
  | '-' :: 'V' :: _ => .version
  | '-' :: 'c' :: rest => .option .config (attached rest)
  | '-' :: 'r' :: rest => .option .replay (attached rest)
  | _ => .unknown

/-- Whether an argument can be the value of the option before it. -/
def isValue (s : String) : Bool := s = "-" || !s.startsWith "-"

end Argument

namespace Invocation

/-- Reads the arguments after some options. -/
def after (o : Options) : List String → Invocation
  | [] => .serve o
  | arg :: rest =>
    match Argument.ofText arg with
    | .help long => .help long
    | .version => .version
    | .option name (some value) =>
      match o.set? name value with
      | some o => after o rest
      | none => .misuse
    | .option name none =>
      match rest with
      | [] => .misuse
      | value :: rest =>
        if Argument.isValue value then
          match o.set? name value with
          | some o => after o rest
          | none => .misuse
        else .misuse
    | .endOfOptions => if rest.isEmpty then .serve o else .misuse
    | .unknown => .misuse

/-- Reads all arguments. -/
def ofArguments (args : List String) : Invocation := after {} args

end Invocation

/-- The name and version of the program. -/
def versionText : String := "decision-engine 0.1.0"

/-- The usage in short. -/
def shortHelp : List String :=
  ["Automated trading decision engine",
   "",
   "Usage: decision-engine [OPTIONS]",
   "",
   "Options:",
   "  -c, --config <CONFIG>  Settings file (defaults to engine.toml when present)",
   "  -r, --replay <REPLAY>  Replay file of inbound envelopes; stdin when omitted",
   "  -h, --help             Print help (see more with '--help')",
   "  -V, --version          Print version"]

/-- The usage at length. -/
def longHelp : List String :=
  ["Automated trading decision engine",
   "",
   "Reads inbound envelopes as JSON lines and writes outbound requests as JSON lines to stdout. " ++
     "Logs go to stderr.",
   "",
   "Usage: decision-engine [OPTIONS]",
   "",
   "Options:",
   "  -c, --config <CONFIG>",
   "          Settings file (defaults to engine.toml when present)",
   "",
   "  -r, --replay <REPLAY>",
   "          Replay file of inbound envelopes; stdin when omitted",
   "",
   "  -h, --help",
   "          Print help (see a summary with '-h')",
   "",
   "  -V, --version",
   "          Print version"]

end TradeDesk.Console
