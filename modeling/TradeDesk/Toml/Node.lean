import TradeDesk.Settings.Tree

/-!
# TOML tables

Statements of a TOML text build up tables. How a table came about decides what may still be added to
it: one that only stands on the path of a header can get a header of its own, one that stands on the
path of a dotted key can get further dotted keys, and no key is defined twice.
-/

namespace TradeDesk.Toml

/-- How a table came about. -/
inductive Origin where
  /-- On the path of a header. -/
  | implied
  /-- On the path of a dotted key. -/
  | dotted
  /-- By its own header, or as an element of an array of tables. -/
  | header
  deriving DecidableEq, Repr

/-- What a key stands for while a text is read. -/
inductive Node where
  | value (t : Tree)
  | table (origin : Origin) (entries : List (String × Node))
  /-- An array of tables, the newest last. -/
  | tables (items : List (List (String × Node)))

/-- Nodes by key. -/
abbrev Entries := List (String × Node)

namespace Entries

def get? (es : Entries) (key : String) : Option Node := (Table.mk es).get? key

def insert (es : Entries) (key : String) (n : Node) : Entries := ((Table.mk es).insert key n).entries

/-- Changes the table that a path leads to, from a table of origin `here`. Tables that are missing on
the way are made. A value cannot be entered, and a dotted key cannot enter a table with a header. Of
an array of tables the newest is meant. -/
def within (dotted : Bool) (f : Origin → Entries → Option Entries) (here : Origin) (es : Entries) :
    List String → Option Entries
  | [] => f here es
  | key :: rest =>
    match es.get? key with
    | none =>
      let origin := if dotted then .dotted else .implied
      (within dotted f origin [] rest).map fun inner => es.insert key (.table origin inner)
    | some (.value _) => none
    | some (.table origin inner) =>
      if dotted && origin = .header then none
      else (within dotted f origin inner rest).map fun inner => es.insert key (.table origin inner)
    | some (.tables items) =>
      (within dotted f .header (items.getLast?.getD []) rest).map fun inner =>
        es.insert key (.tables (items.dropLast ++ [inner]))

/-- Gives a new key a value. A dotted key only ends in a table that dotted keys made. -/
def assign (es : Entries) (path : List String) (value : Tree) : Option Entries :=
  match path.getLast? with
  | none => none
  | some key =>
    let put (origin : Origin) (es : Entries) : Option Entries :=
      if (origin = .dotted) = path.dropLast.isEmpty then none
      else if (es.get? key).isSome then none
      else some (es.insert key (.value value))
    within true put .header es path.dropLast

/-- Opens the table of a header. One that stood on the path of a header before goes behind the others
of its table. -/
def openTable (es : Entries) (path : List String) : Option Entries :=
  match path.getLast? with
  | none => none
  | some key =>
    let put (_ : Origin) (es : Entries) : Option Entries :=
      match es.get? key with
      | none => some (es.insert key (.table .header []))
      | some (.table .implied inner) =>
        some ((((Table.mk es).erase key).insert key (.table .header inner)).entries)
      | some _ => none
    within false put .header es path.dropLast

/-- Opens a new element of an array of tables. -/
def openElement (es : Entries) (path : List String) : Option Entries :=
  match path.getLast? with
  | none => none
  | some key =>
    let put (_ : Origin) (es : Entries) : Option Entries :=
      match es.get? key with
      | none => some (es.insert key (.tables [[]]))
      | some (.tables items) => some (es.insert key (.tables (items ++ [[]])))
      | some _ => none
    within false put .header es path.dropLast

end Entries

mutual

/-- The tree of a node. -/
def Node.tree : Node → Tree
  | .value t => t
  | .table _ es => .table (Entries.trees es)
  | .tables items => .array (Entries.arrays items)

/-- The trees of the nodes of a table. -/
def Entries.trees : List (String × Node) → List (String × Tree)
  | [] => []
  | (key, n) :: rest => (key, n.tree) :: Entries.trees rest

/-- The elements of an array of tables. -/
def Entries.arrays : List (List (String × Node)) → List Tree
  | [] => []
  | es :: rest => .table (Entries.trees es) :: Entries.arrays rest

end

end TradeDesk.Toml
