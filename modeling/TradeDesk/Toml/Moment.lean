import TradeDesk.Settings.Tree

/-!
# Dates and times in TOML

A date or time is text in a normal form. While a document is read, it is a table that has the text
under a reserved key, and a table that begins with that key is a date or time too: the whole of it,
whatever else is in it. `withMoments` puts the text in the place of the table.
-/

namespace TradeDesk.Toml

/-- The number that two digits write. -/
def two? (a b : Char) : Option Nat :=
  if a.isDigit && b.isDigit then some (Scalar.natural 10 [a, b]) else none

/-- How many days a month has. -/
def monthLength (year month : Nat) : Nat :=
  if month = 2 then
    if year % 4 = 0 ∧ (year % 100 ≠ 0 ∨ year % 400 = 0) then 29 else 28
  else if month = 4 ∨ month = 6 ∨ month = 9 ∨ month = 11 then 30
  else 31

/-- A date at the start of text, and what follows it. -/
def date? : List Char → Option (List Char × List Char)
  | a :: b :: c :: d :: '-' :: e :: f :: '-' :: g :: h :: rest => do
    let year := 100 * (← two? a b) + (← two? c d)
    let month ← two? e f
    let day ← two? g h
    if 1 ≤ month ∧ month ≤ 12 ∧ 1 ≤ day ∧ day ≤ monthLength year month then
      some ([a, b, c, d, '-', e, f, '-', g, h], rest)
    else none
  | _ => none

/-- The fraction of a second, cut to nine places and without zeros at its end. -/
def subsecond? : List Char → Option (List Char × List Char)
  | '.' :: rest =>
    match rest.span Char.isDigit with
    | ([], _) => none
    | (places, rest) =>
      match ((places.take 9).reverse.dropWhile (· = '0')).reverse with
      | [] => some ([], rest)
      | kept => some ('.' :: kept, rest)
  | s => some ([], s)

/-- A time of day at the start of text, and what follows it. -/
def clock? : List Char → Option (List Char × List Char)
  | a :: b :: ':' :: c :: d :: ':' :: e :: f :: rest => do
    let (hour, minute, second) := (← two? a b, ← two? c d, ← two? e f)
    let (places, rest) ← subsecond? rest
    if hour < 24 ∧ minute < 60 ∧ second ≤ 60 then
      some ([a, b, ':', c, d, ':', e, f] ++ places, rest)
    else none
  | _ => none

/-- A time zone that is all of text. -/
def zone? : List Char → Option (List Char)
  | [] => some []
  | ['Z'] | ['z'] => some ['Z']
  | [s, a, b, ':', c, d] => do
    let (hour, minute) := (← two? a b, ← two? c d)
    if (s = '+' ∨ s = '-') ∧ hour < 24 ∧ minute < 60 then
      some ((if hour = 0 ∧ minute = 0 then '+' else s) :: [a, b, ':', c, d])
    else none
  | _ => none

/-- A date with a time of day, a date, or a time of day. -/
def moment? (s : List Char) : Option (List Char) :=
  match date? s with
  | some (date, []) => some date
  | some (date, c :: rest) => do
    let (clock, rest) ← clock? rest
    let zone ← zone? rest
    if c = 'T' ∨ c = 't' ∨ c = ' ' then some (date ++ 'T' :: clock ++ zone) else none
  | none =>
    match clock? s with
    | some (clock, []) => some clock
    | _ => none

/-- The reserved key. -/
def momentKey : String := "$__toml_private_datetime"

/-- The table that stands for a date or time. -/
def ofMoment (m : List Char) : Tree := .table [(momentKey, .text (String.ofList m))]

mutual

/-- A tree with text in the place of tables that stand for dates and times. It fails if one of them
has something else under the reserved key. -/
def withMoments : Tree → Option Tree
  | .table ((key, t) :: rest) =>
    if key = momentKey then
      match t with
      | .text s => (moment? s.toList).map fun m => .text (String.ofList m)
      | _ => none
    else do return .table ((key, ← withMoments t) :: (← entriesWithMoments rest))
  | .array items => (itemsWithMoments items).map .array
  | t => some t

/-- The entries of a table after the first. -/
def entriesWithMoments : List (String × Tree) → Option (List (String × Tree))
  | [] => some []
  | (key, t) :: rest => do return (key, ← withMoments t) :: (← entriesWithMoments rest)

/-- The items of an array. -/
def itemsWithMoments : List Tree → Option (List Tree)
  | [] => some []
  | t :: rest => do return (← withMoments t) :: (← itemsWithMoments rest)

end

end TradeDesk.Toml
