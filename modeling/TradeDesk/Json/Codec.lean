import TradeDesk.Json.Document

/-!
# Typed reading and writing

A `Codec` writes a value of a type as JSON and reads it back from a document with a limit on how many
containers may be open inside one another.

A record is written as an object whose members are its fields in order. It is read from an object,
where fields come in any order, members of other names are ignored and a field may not come twice,
or from an array of its fields in order. A record that starts with an instrument's three names is
*keyed*: its text mixes those names with the other fields, so it is only ever an object, and the
members that it ignores must at least be readable as values.

These are the derived forms of the records of `models`, `protocol` and `execution`.
-/

namespace TradeDesk.Json

/-- A type with a JSON form. `read` takes the number of containers that may still be opened. -/
class Codec (α : Type) where
  write : α → Value
  read : Nat → Document → Option α

export Codec (write read)

namespace Codec

/-- Reads a whole text as one value. -/
def parse? {α : Type} [Codec α] (bytes : List UInt8) : Option α :=
  (Document.parse? bytes).bind (read Document.depthLimit)

instance : Codec Bool where
  write b := .bool b
  read
    | _, .bool b => some b
    | _, _ => none

instance : Codec String where
  write s := .text s
  read
    | _, .text s => s
    | _, _ => none

instance : Codec Float where
  write x := .float x
  read
    | _, .number n => n.toFloat?
    | _, _ => none

/-- An integer from `low` to `high`. -/
def integerIn (low high : Int) : Document → Option Int
  | .number n => n.toInt?.filter fun i => decide (low ≤ i ∧ i ≤ high)
  | _ => none

instance : Codec UInt64 where
  write n := .int n.toNat
  read _ d := (integerIn 0 (UInt64.size - 1) d).map fun i => UInt64.ofNat i.toNat

instance : Codec UInt32 where
  write n := .int n.toNat
  read _ d := (integerIn 0 (UInt32.size - 1) d).map fun i => UInt32.ofNat i.toNat

instance : Codec Int64 where
  write n := .int n.toInt
  read _ d := (integerIn Int64.minValue.toInt Int64.maxValue.toInt d).map Int64.ofInt

instance : Codec Int32 where
  write n := .int n.toInt
  read _ d := (integerIn Int32.minValue.toInt Int32.maxValue.toInt d).map Int32.ofInt

instance {α : Type} [Codec α] : Codec (List α) where
  write items := .array (items.map write)
  read
    | depth + 1, .array items => items.mapM (read depth)
    | _, _ => none

/-- A pair is an array of exactly two items. -/
instance {α β : Type} [Codec α] [Codec β] : Codec (α × β) where
  write p := .array [write p.1, write p.2]
  read
    | depth + 1, .array [a, b] => do some ((← read depth a), (← read depth b))
    | _, _ => none

instance {α : Type} [Codec α] : Codec (Option α) where
  write
    | none => .null
    | some a => write a
  read
    | _, .null => some none
    | depth, d => (read depth d).map some

/-- The constant that a list of named constants gives a name. -/
def named? {α : Type} (names : List (String × α)) (name : String) : Option α :=
  (names.find? fun entry => entry.1 = name).map (·.2)

/-- One of a list of named constants: its name as text, or an object with that one name and the
value `null`. -/
def readName {α : Type} (names : List (String × α)) : Nat → Document → Option α
  | _, .text (some s) => named? names s
  | _ + 1, .object [(some s, .null)] => named? names s
  | _, _ => none

end Codec

/-- The fields of a record that is being read: members by name, or the items that are left. -/
inductive Fields where
  | byName (members : List (String × Document))
  | byPlace (items : List Document)

/-- Reads some of the fields of a record. -/
abbrev FieldReader (α : Type) := ReaderT Nat (StateT Fields Option) α

namespace FieldReader

/-- The next field: the one member of that name, or the next item in place. The inner option is
empty when the field is missing; a name that comes twice is an error. -/
def next (name : String) : FieldReader (Option Document) := do
  match ← get with
  | .byName members =>
    match members.filter (fun m => m.1 = name) with
    | [] => return none
    | [m] => return some m.2
    | _ => failure
  | .byPlace [] => return none
  | .byPlace (d :: rest) => do
    set (Fields.byPlace rest)
    return some d

/-- A field that must be there. -/
def required {α : Type} [Codec α] (name : String) : FieldReader α := do
  match ← next name with
  | none => failure
  | some d => fun depth fields => (Codec.read depth d).map (·, fields)

/-- A field with a value for when it is missing. -/
def optional {α : Type} [Codec α] (name : String) (default : α) : FieldReader α := do
  match ← next name with
  | none => return default
  | some d => fun depth fields => (Codec.read depth d).map (·, fields)

/-- The members of an object, if every key is well formed. -/
def members? (members : List (Option String × Document)) : Option (List (String × Document)) :=
  members.mapM fun (k, d) => k.map (·, d)

/-- Reads a record by its fields, from an object or an array. -/
def record {α : Type} (fields : FieldReader α) : Nat → Document → Option α
  | depth + 1, .object members => do
    let members ← members? members
    return (← (fields.run depth).run (.byName members)).1
  | depth + 1, .array items => do
    match ← (fields.run depth).run (.byPlace items) with
    | (a, .byPlace []) => some a
    | _ => none
  | _, _ => none

/-- Reads a keyed record, whose fields have the given names beside those of the instrument. -/
def keyedRecord {α : Type} (names : List String) (fields : FieldReader α) :
    Nat → Document → Option α
  | depth + 1, .object members => do
    let members ← members? members
    if members.all fun (k, d) => names.contains k || (d.toValue? depth).isSome then
      return (← (fields.run depth).run (.byName members)).1
    else none
  | _, _ => none

end FieldReader

end TradeDesk.Json
