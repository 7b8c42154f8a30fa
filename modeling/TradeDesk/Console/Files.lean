import TradeDesk.Settings.Source

/-!
# Paths of files

A path is steps with slashes between them; a step that is empty or a single point stays where it is.

Spec: `SPEC_FULL.md` §B.3 and §B.5: the settings file, which may be left out, and the replay file.
-/

namespace TradeDesk.Console

/-- Whether a step of a path stays where it is. -/
def isIdle (step : String) : Bool := step = "" || step = "."

/-- A path without the idle steps at its end, if it has others and does not end by going up. -/
def stem? (path : String) : Option String :=
  match (path.splitOn "/").reverse.dropWhile isIdle with
  | [] => none
  | ".." :: _ => none
  | steps => some ("/".intercalate steps.reverse)

/-- The name of the file that a path leads to from a directory without others inside it. Nothing may
follow a file, not even an idle step. -/
def fileName? (path : String) : Option String :=
  match (path.splitOn "/").reverse with
  | [] => none
  | name :: before =>
    if isIdle name || !before.all isIdle || path.startsWith "/" then none else some name

/-- The files of a directory by name. -/
abbrev Files := List (String × List UInt8)

/-- The bytes of the file that a path leads to. -/
def Files.read? (files : Files) (path : String) : Option (List UInt8) :=
  (fileName? path).bind fun name => files.lookup name

/-- The paths under which a settings file may be found, in this order. -/
def configPlaces (path : Option String) : List String :=
  let path := path.getD Settings.defaultFile
  path :: (stem? path).toList.flatMap fun stem => [stem ++ ".toml", stem ++ ".json"]

/-- The settings of the first of these files that is there, under the environment. -/
def loadSettings (texts : List (String × String)) (config : Option String)
    (env : List (String × String)) : Except DeskError Settings :=
  match (configPlaces config).findSome? fun path => (texts.lookup path).map (path, ·) with
  | some (path, text) => Settings.load (some path) (some text) env
  | none => Settings.load config none env

end TradeDesk.Console
