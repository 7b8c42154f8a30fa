import TradeDesk.Settings.Lenient
import TradeDesk.Toml.Document

/-!
# Where settings come from

Settings come from a file, over which the environment is laid. A variable whose name begins with
`ENGINE__` names a setting by the rest, two underscores leading into a table; its text is taken for
a switch, an integer or a real number if it can be. A file is TOML or JSON, as the end of its name
says.

Spec: `SPEC_FULL.md` §B.3. Follows `Settings::load` and `Settings::from_toml` of `config`.
-/

namespace TradeDesk

open Json

mutual

/-- A JSON value as a tree. An integer beyond 64 bits with a sign is a real number there. -/
def Tree.ofValue : Value → Tree
  | .null => .null
  | .bool b => .bool b
  | .int n => if Int64.minValue.toInt ≤ n ∧ n ≤ Int64.maxValue.toInt then .int n else .float (Float.ofInt n)
  | .float x => .float x
  | .text s => .text s
  | .array l => .array (Tree.ofItems l)
  | .object l => .table (Tree.ofMembers l)

/-- The items of an array as trees. -/
def Tree.ofItems : List Value → List Tree
  | [] => []
  | v :: rest => Tree.ofValue v :: Tree.ofItems rest

/-- The members of an object as entries. -/
def Tree.ofMembers : List (String × Value) → List (String × Tree)
  | [] => []
  | (k, v) :: rest => (k, Tree.ofValue v) :: Tree.ofMembers rest

end

/-- What a settings file is written in. -/
inductive FileFormat where
  | toml
  | json
  deriving DecidableEq, Repr

namespace FileFormat

/-- The part of a file's name after its last point, if something stands before that. -/
def extension? (path : String) : Option String :=
  let name := (path.toList.reverse.takeWhile (· ≠ '/'))
  match name.span (· ≠ '.') with
  | (_, ['.']) => none
  | (_, []) => none
  | (ext, _) => some (String.ofList ext.reverse)

/-- The format of a file by its name. -/
def ofPath? (path : String) : Option FileFormat :=
  match extension? path with
  | some "toml" => some toml
  | some "json" => some json
  | _ => none

/-- The entries of a file's text. -/
def parse? (f : FileFormat) (text : String) : Option (List (String × Tree)) :=
  match f with
  | toml => Toml.parse? text
  | json =>
    match (Document.parse? (utf8 text)).bind (·.toValue? Document.depthLimit) with
    | some (.object members) => some (Tree.ofMembers members)
    | _ => none

end FileFormat

namespace Environment

/-- What a variable's text stands for. -/
def value (s : String) : Tree :=
  if Letters.small s = "true" then .bool true
  else if Letters.small s = "false" then .bool false
  else
    match (Scalar.integer? s.toList).filter fun n => decide (Int64.minValue.toInt ≤ n ∧ n ≤ Int64.maxValue.toInt) with
    | some n => .int n
    | none =>
      match Scalar.real? s.toList with
      | some x => .float x
      | none => .text s

/-- What the names of variables that are settings begin with, in small letters. -/
def marker : String := "engine__"

/-- A name with points for pairs of underscores. -/
def dotted : List Char → List Char
  | '_' :: '_' :: rest => '.' :: dotted rest
  | c :: rest => c :: dotted rest
  | [] => []

/-- The setting that a variable names. -/
def setting? (name : String) : Option String :=
  let name := Letters.small name
  if name.startsWith marker then some (String.ofList (dotted (name.toList.drop marker.length)))
  else none

/-- The entries of an environment. -/
def entries (env : List (String × String)) : List (String × Tree) :=
  env.filterMap fun (name, text) => (setting? name).map (·, value text)

end Environment

namespace Settings

/-- What sources come to, the later laid over the earlier. The whole is laid over an empty tree in
the end, which finds the paths among keys that only now are in small letters. -/
def merged (sources : List (List (String × Tree))) : Option Tree := do
  let tree ← sources.foldlM Tree.overlay (.table [])
  Tree.overlay (.table []) tree.entries

/-- The settings that sources describe, if they can be used. -/
def ofSources (sources : List (List (String × Tree))) : Except DeskError Settings := do
  match merged sources with
  | none => .error .arrayBounds
  | some tree =>
    match (Lenient.read tree : Option Settings) with
    | none => .error .config
    | some s =>
      s.validate
      return s

/-- The settings of a TOML text. -/
def ofToml (text : String) : Except DeskError Settings :=
  match Toml.parse? text with
  | none => .error .config
  | some es => ofSources [es]

/-- The file that is looked for when none is named. -/
def defaultFile : String := "engine.toml"

/-- The entries of a settings file. One that was named must be there, and its name must say what it
is written in. -/
def fileEntries (path : Option String) (text : Option String) :
    Except DeskError (List (String × Tree)) :=
  match path, text with
  | none, none => .ok []
  | some _, none => .error .config
  | path, some text =>
    match (FileFormat.ofPath? (path.getD defaultFile)).bind (·.parse? text) with
    | some es => .ok es
    | none => .error .config

/-- The settings of a file, the default one when none is named, and the environment. -/
def load (path text : Option String) (env : List (String × String)) : Except DeskError Settings := do
  ofSources [← fileEntries path text, Environment.entries env]

end Settings

end TradeDesk
