import TradeDesk.Toml.Node
import TradeDesk.Toml.Scalar

/-!
# TOML documents

The grammar above strings and scalars. A reader takes characters from the front of a text. The text
is read with single line feeds as line ends, so that a carriage return anywhere else is an error.
-/

namespace TradeDesk.Toml

/-- Reads something from the front of a text. -/
abbrev Reader := StateT (List Char) Option

namespace Reader

/-- The reader of a function on texts. -/
def of {α : Type} (f : List Char → Option (α × List Char)) : Reader α := f

/-- Takes some characters if they are next. -/
def accept (word : List Char) : Reader Bool := fun s =>
  if word.isPrefixOf s then some (true, s.drop word.length) else some (false, s)

/-- Takes some characters, which must be next. -/
def expect (word : List Char) : Reader Unit := do
  if ← accept word then return () else failure

/-- Takes characters as long as they are of a kind. -/
def takeWhile (p : Char → Bool) : Reader (List Char) := fun s => some (s.span p)

/-- Skips blanks. -/
def blanks : Reader Unit := do
  let _ ← takeWhile isBlank

/-- Skips a comment, if one is next. -/
def comment : Reader Unit := do
  if ← accept ['#'] then
    let _ ← takeWhile isPlain

/-- Skips blanks, comments and line ends; `fuel` bounds the number of lines. -/
def space : Nat → Reader Unit
  | 0 => blanks
  | fuel + 1 => do
    blanks
    comment
    if ← accept ['\n'] then space fuel

/-- The end of a statement: a line end, or the end of the text. -/
def lineEnd : Reader Unit := do
  blanks
  comment
  match ← get with
  | [] => return ()
  | _ => expect ['\n']

/-- How deep tables and arrays may be inside one another, and how long a path of keys may be. -/
def nesting : Nat := 79

def isBareKeyChar (c : Char) : Bool := c.isAlphanum || c = '_' || c = '-'

/-- One key, bare or quoted. -/
def simpleKey : Reader String := do
  match ← get with
  | '\"' :: _ => of (string? false)
  | '\'' :: _ => of (string? false)
  | _ =>
    match ← takeWhile isBareKeyChar with
    | [] => failure
    | key => return String.ofList key

/-- The keys of a path, with points between them. -/
def keys : Nat → Reader (List String)
  | 0 => failure
  | fuel + 1 => do
    blanks
    let key ← simpleKey
    blanks
    if ← accept ['.'] then return key :: (← keys fuel) else return [key]

/-- A path of keys. -/
def path : Reader (List String) := keys nesting

/-- A path and the value that it gets. -/
def pair (value : Reader Tree) : Reader (List String × Tree) := do
  let path ← path
  expect ['=']
  blanks
  return (path, ← value)

/-- The items of an array after its opening bracket. -/
def items (value : Reader Tree) : Nat → Reader (List Tree)
  | 0 => failure
  | fuel + 1 => do
    space fuel
    if ← accept [']'] then return []
    let item ← value
    space fuel
    if ← accept [','] then return item :: (← items value fuel)
    expect [']']
    return [item]

/-- The pairs of an inline table, the first of which is next. -/
def pairs (value : Reader Tree) (es : Entries) : Nat → Reader Entries
  | 0 => failure
  | fuel + 1 => do
    let (path, v) ← pair value
    let es ← (es.assign path v : Option Entries)
    blanks
    if ← accept [','] then pairs value es fuel
    else
      expect ['\x7d']
      return es

/-- A value that is no container. -/
def scalar : Reader Tree := do
  match ← get with
  | '\"' :: _ => return .text (← of (string? true))
  | '\'' :: _ => return .text (← of (string? true))
  | s =>
    let (word, rest) := scalarText s
    set rest
    scalar? word

/-- A value inside which containers are fewer than `depth` deep. -/
def value : Nat → Reader Tree
  | 0 => scalar
  | depth + 1 => do
    let fuel := (← get).length
    if ← accept ['['] then return .array (← items (value depth) fuel)
    else if ← accept ['\x7b'] then
      blanks
      if ← accept ['\x7d'] then return .table []
      return .table (Entries.trees (← pairs (value depth) [] fuel))
    else scalar

/-- A document that is being read: its tables, and the path of the open one. -/
structure Draft where
  root : Entries
  current : List String

/-- One statement: a header, or a key with its value. -/
def statement (d : Draft) : Reader Draft := do
  if ← accept ['[', '['] then
    let path ← path
    expect [']', ']']
    return ⟨← (d.root.openElement path : Option Entries), path⟩
  else if ← accept ['['] then
    let path ← path
    expect [']']
    return ⟨← (d.root.openTable path : Option Entries), path⟩
  else
    let (path, v) ← pair (value nesting)
    let put (_ : Origin) (es : Entries) : Option Entries := es.assign path v
    return { d with root := ← (Entries.within false put .header d.root d.current : Option Entries) }

/-- The statements of a document; `fuel` bounds their number. -/
def statements (d : Draft) : Nat → Reader Draft
  | 0 => failure
  | fuel + 1 => do
    space fuel
    match ← get with
    | [] => return d
    | _ =>
      let d ← statement d
      lineEnd
      statements d fuel

end Reader

/-- A text with single line feeds for its line ends. -/
def joinLineEnds : List Char → List Char
  | '\r' :: '\n' :: rest => '\n' :: joinLineEnds rest
  | c :: rest => c :: joinLineEnds rest
  | [] => []

/-- The entries of a TOML text. A byte order mark in front is passed over. -/
def parse? (text : String) : Option (List (String × Tree)) :=
  let s := joinLineEnds (match text.toList with
    | '\ufeff' :: rest => rest
    | s => s)
  match Reader.statements ⟨[], []⟩ (s.length + 1) s with
  | some (d, []) =>
    match withMoments (.table (Entries.trees d.root)) with
    | some (.table entries) => some entries
    | _ => none
  | _ => none

end TradeDesk.Toml
