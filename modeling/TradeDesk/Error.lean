/-!
# Errors

Everything that can go wrong while a desk is configured and assembled, and the two ways in which a
payload can fail. Each cause has one text.

Spec: `SPEC_FULL.md` §7 and §B.2. Follows `EngineError` of `error`.
-/

namespace TradeDesk

/-- Why settings that could be read are not usable. -/
inductive SettingsFault where
  /-- The ring capacity is less than the bars of the slow line. -/
  | ringCapacity (least : Nat)
  | queueCapacity
  | maxChecks
  | noExchange
  | unnamedExchange
  | exchangeTwice (exchange : String)
  | noTimeframes (exchange : String)
  | faceValue (exchange symbol : String)
  | strategyExchange (exchange : String)
  | strategyTimeframe (timeframe : String)
  | volumeBounds
  deriving DecidableEq, Repr

namespace SettingsFault

/-- The text of a fault. -/
def message : SettingsFault → String
  | ringCapacity least =>
    "ring_capacity must be at least " ++ toString least ++ " so the slow line can form"
  | queueCapacity => "queue_capacity must be positive"
  | maxChecks => "feedback_max_checks must be positive"
  | noExchange => "at least one exchange must be configured"
  | unnamedExchange => "exchange name must not be empty"
  | exchangeTwice exchange => "exchange '" ++ exchange ++ "' configured twice"
  | noTimeframes exchange => "exchange '" ++ exchange ++ "' has no timeframes"
  | faceValue exchange symbol =>
    "exchange '" ++ exchange ++ "' symbol '" ++ symbol ++ "' needs a positive face value"
  | strategyExchange exchange => "mavg exchange '" ++ exchange ++ "' is not configured"
  | strategyTimeframe timeframe =>
    "mavg signal timeframe " ++ timeframe ++ " is not aggregated"
  | volumeBounds => "mavg min_vol exceeds max_vol"

end SettingsFault

/-- Why something cannot be registered. -/
inductive RegistrationFault where
  | unnamedStrategy
  | unnamedObserver
  | traderTwice (exchange : String)
  deriving DecidableEq, Repr

namespace RegistrationFault

/-- The text of a fault. -/
def message : RegistrationFault → String
  | unnamedStrategy => "strategy with empty name"
  | unnamedObserver => "handler with empty name"
  | traderTwice exchange => "exchange '" ++ exchange ++ "' has more than one trader"

end RegistrationFault

/-- What the desk reports as an error. -/
inductive DeskError where
  /-- A payload of this message type is not the record it should be. -/
  | decode (msgType : UInt32)
  | duplicateState (state : String)
  | duplicateHandler (handler : String)
  | missingState (state : String)
  | noInitialState (machine : String)
  | duplicateStrategy (strategy : String)
  | invalidRegistration (fault : RegistrationFault)
  | unknownExchange (exchange : String)
  /-- Settings could not be read. -/
  | config
  /-- A path in settings has an index that no array can have. -/
  | arrayBounds
  | invalidConfig (fault : SettingsFault)
  deriving DecidableEq, Repr

namespace DeskError

/-- The name of an error's kind, for programs that tell errors apart. -/
def kind : DeskError → String
  | decode _ => "Decode"
  | duplicateState _ => "DuplicateState"
  | duplicateHandler _ => "DuplicateHandler"
  | missingState _ => "MissingState"
  | noInitialState _ => "NoInitialState"
  | duplicateStrategy _ => "DuplicateStrategy"
  | invalidRegistration _ => "InvalidRegistration"
  | unknownExchange _ => "UnknownExchange"
  | config => "Config"
  | arrayBounds => "ArrayBounds"
  | invalidConfig _ => "InvalidConfig"

/-- The text of an error. -/
def message : DeskError → String
  | decode msgType => "failed to decode payload for message type " ++ toString msgType.toNat
  | duplicateState state => "state '" ++ state ++ "' registered twice"
  | duplicateHandler handler => "handler '" ++ handler ++ "' registered twice"
  | missingState state => "state '" ++ state ++ "' is reachable but was never registered"
  | noInitialState machine => "state machine '" ++ machine ++ "' has no initial state"
  | duplicateStrategy strategy => "strategy '" ++ strategy ++ "' registered twice"
  | invalidRegistration fault => "invalid registration: " ++ fault.message
  | unknownExchange exchange => "exchange '" ++ exchange ++ "' is not configured"
  | config => "failed to load settings"
  | arrayBounds => "an index in settings is out of bounds"
  | invalidConfig fault => "invalid settings: " ++ fault.message

end DeskError

end TradeDesk
