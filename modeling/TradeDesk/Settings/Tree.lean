import TradeDesk.Settings.Scalar
import TradeDesk.Table
import TradeDesk.Text.Letters

/-!
# Settings trees

What files and the environment say before it is known what is meant: scalars, arrays and tables.
Sources are laid over one another entry by entry. Tables merge, and their keys are written in small
letters as they do; everything else takes the place of what was there. What stands inside an array
is left as it is.

An entry is named by a path. Reaching for it makes tables and arrays of whatever is in the way. It
fails at an index that no array has: one that counts back beyond the first item, or that is so large
that the array could not be made.

These are the trees of the settings library that `Settings::load` of `config` calls.
-/

namespace TradeDesk

/-- A scalar, an array or a table. -/
inductive Tree where
  | null
  | bool (b : Bool)
  | int (n : Int)
  | float (x : Float)
  | text (s : String)
  | array (items : List Tree)
  | table (entries : List (String × Tree))
  deriving Inhabited

namespace Tree

/-- The entries of a table; anything else has none. -/
def entries : Tree → List (String × Tree)
  | table es => es
  | _ => []

/-- The items of an array; anything else has none. -/
def items : Tree → List Tree
  | array l => l
  | _ => []

/-- The entry of a key. -/
def get? (t : Tree) (key : String) : Option Tree := (Table.mk t.entries).get? key

/-- The table with the entry of a key replaced or added. -/
def insert (t : Tree) (key : String) (value : Tree) : Tree :=
  table ((Table.mk t.entries).insert key value).entries

mutual

/-- Lays an entry over a tree. -/
def put (key : String) (value root : Tree) : Tree :=
  let key := Letters.small key
  match value with
  | .table es => root.insert key (putAll es ((root.get? key).getD (.table [])))
  | value => root.insert key value

/-- Lays the entries of a table over a tree. -/
def putAll : List (String × Tree) → Tree → Tree
  | [], root => root
  | (key, value) :: rest, root => putAll rest (put key value root)

end

/-- One step of a path, into a table or an array. A negative index counts from the end. -/
inductive Step where
  | key (name : String)
  | index (i : Int)
  deriving DecidableEq, Repr

/-- An array of this many items cannot be made. -/
def arrayLimit : Nat := UInt32.size

/-- Where an index points in an array of some length, which may be behind its end. -/
def place? (i : Int) (length : Nat) : Option Nat :=
  match i with
  | .ofNat n => if n + 1 < arrayLimit then some n else none
  | .negSucc n => if n < length then some (length - (n + 1)) else none

/-- Changes what a path leads to. Nulls fill up an array whose end is before an index. -/
def reach (f : Tree → Option Tree) : List Step → Tree → Option Tree
  | [], t => f t
  | .key k :: rest, t =>
    let k := Letters.small k
    (reach f rest ((t.get? k).getD .null)).map (t.insert k)
  | .index i :: rest, t => do
    let n ← place? i t.items.length
    let items := t.items ++ List.replicate (n + 1 - t.items.length) .null
    return .array (items.set n (← reach f rest (items.getD n .null)))

/-- Lays a value over what the last step of a path leads to. -/
def lay (last : Step) (value parent : Tree) : Option Tree :=
  match last with
  | .key k => some (put k value parent)
  | .index _ => reach (fun _ => some value) [last] parent

/-- Letters, digits, blanks, underscores and hyphens make up the keys of a path. -/
def isKeyChar (c : Char) : Bool :=
  c.isAlphanum || c = ' ' || c = '_' || c = '-'

/-- A nonempty key, and what follows it. -/
def key? (s : List Char) : Option (String × List Char) :=
  match s.span isKeyChar with
  | ([], _) => none
  | (k, rest) => some (String.ofList k, rest)

/-- Text without the blanks and tabs in front of it. -/
def skipBlanks (s : List Char) : List Char := s.dropWhile fun c => c = ' ' || c = '\t'

/-- An index of 64 bits up to its closing bracket, and what follows that. Blanks may stand around
it. -/
def index? (s : List Char) : Option (Int × List Char) :=
  let (negative, s) := match skipBlanks s with
    | '-' :: rest => (true, rest)
    | s => (false, s)
  let (digits, s) := s.span Char.isDigit
  match digits, skipBlanks s with
  | [], _ => none
  | digits, ']' :: rest =>
    let n : Int := Scalar.natural 10 digits
    let i := if negative then -n else n
    if Int64.minValue.toInt ≤ i ∧ i ≤ Int64.maxValue.toInt then some (i, rest) else none
  | _, _ => none

/-- The steps after the first key of a path; `fuel` bounds their number. -/
def steps? : Nat → List Char → Option (List Step)
  | _, [] => some []
  | fuel + 1, '.' :: s => do
    let (k, s) ← key? s
    return .key k :: (← steps? fuel s)
  | fuel + 1, '[' :: s => do
    let (i, s) ← index? s
    return .index i :: (← steps? fuel s)
  | _, _ => none

/-- The steps of a path such as `a.b[2]`. Text of any other form is a key by itself. -/
def path (s : String) : List Step :=
  let parsed : Option (List Step) := do
    let (k, rest) ← key? s.toList
    return .key k :: (← steps? s.length rest)
  parsed.getD [.key s]

/-- Lays a value over a tree where a path says. -/
def set (root : Tree) (name : String) (value : Tree) : Option Tree :=
  match (path name).reverse with
  | [] => some root
  | last :: before => reach (lay last value) before.reverse root

/-- Lays the entries of a source over a tree. -/
def overlay (root : Tree) (source : List (String × Tree)) : Option Tree :=
  source.foldlM (fun root e => root.set e.1 e.2) root

end Tree

end TradeDesk
