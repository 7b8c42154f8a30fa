import TradeDesk.Toml.Moment
import TradeDesk.Toml.Text

/-!
# TOML scalars

Booleans, integers in four bases, reals, and dates and times. Digits may be grouped by single
underscores between them.
-/

namespace TradeDesk.Toml

/-- A nonempty run of digits without its underscores, each of which must stand between two digits. -/
def ungroup? (isDigit : Char → Bool) : List Char → Option (List Char)
  | [] => none
  | [c] => if isDigit c then some [c] else none
  | c :: '_' :: rest => if isDigit c then (ungroup? isDigit rest).map (c :: ·) else none
  | c :: rest => if isDigit c then (ungroup? isDigit rest).map (c :: ·) else none

/-- A decimal whole number without its sign: no zero stands in front of other digits. -/
def whole? (s : List Char) : Option (List Char) :=
  (ungroup? Char.isDigit s).filter fun digits => digits.head? ≠ some '0' || digits.length = 1

/-- Digits in a base with a limit on the number. -/
def based? (base : Nat) (isDigit : Char → Bool) (s : List Char) : Option Int :=
  (ungroup? isDigit s).bind fun digits =>
    let n := Scalar.natural base digits
    if n ≤ Int64.maxValue.toInt then some (n : Int) else none

/-- An integer of 64 bits. -/
def integer? (s : List Char) : Option Int :=
  match s with
  | '0' :: 'x' :: rest => based? 16 isHexDigit rest
  | '0' :: 'o' :: rest => based? 8 (fun c => '0' ≤ c && c ≤ '7') rest
  | '0' :: 'b' :: rest => based? 2 (fun c => c = '0' || c = '1') rest
  | _ => do
    let (negative, rest) := Scalar.sign s
    let n := Scalar.natural 10 (← whole? rest)
    if negative then if Int64.minValue.toInt ≤ -n then some (-(n : Int)) else none
    else if n ≤ Int64.maxValue.toInt then some (n : Int) else none

/-- The exponent part of a real number, its digits ungrouped. -/
def power? : List Char → Option (List Char)
  | [] => some []
  | c :: rest =>
    if c = 'e' || c = 'E' then
      let (negative, digits) := Scalar.sign rest
      (ungroup? Char.isDigit digits).map fun digits =>
        'e' :: (if negative then '-' :: digits else digits)
    else none

/-- The digits after a point and the exponent part, ungrouped. -/
def fraction? : List Char → Option (List Char)
  | '.' :: rest => do
    let (places, power) := rest.span fun c => c.isDigit || c = '_'
    return '.' :: (← ungroup? Char.isDigit places) ++ (← power? power)
  | s => power? s

/-- A real number: a whole number alone is none. One above the largest double is refused; one below
its opposite is infinite. -/
def real? (s : List Char) : Option Float :=
  let (negative, rest) := Scalar.sign s
  if rest = ['i', 'n', 'f'] || rest = ['n', 'a', 'n'] then Scalar.real? s
  else do
    let (whole, more) := rest.span fun c => c.isDigit || c = '_'
    if more.isEmpty then failure
    let x ← Scalar.real? ((← whole? whole) ++ (← fraction? more))
    if negative then some (-x) else if x.isInf then none else some x

/-- A scalar that is not a string. -/
def scalar? (s : List Char) : Option Tree :=
  if s = ['t', 'r', 'u', 'e'] then some (.bool true)
  else if s = ['f', 'a', 'l', 's', 'e'] then some (.bool false)
  else
    match moment? s, integer? s, real? s with
    | some m, _, _ => some (ofMoment m)
    | _, some n, _ => some (.int n)
    | _, _, some x => some (.float x)
    | _, _, _ => none

/-- A character that may stand in such a scalar. -/
def isScalarChar (c : Char) : Bool :=
  c.isAlphanum || c = '+' || c = '-' || c = '.' || c = '_' || c = ':'

/-- The text of a scalar, and what follows it. A date and a time may stand apart. -/
def scalarText (s : List Char) : List Char × List Char :=
  match s.span isScalarChar with
  | (word, ' ' :: c :: rest) =>
    if (date? word).map (·.2) = some [] ∧ c.isDigit then
      let (clock, rest) := (c :: rest).span isScalarChar
      (word ++ ' ' :: clock, rest)
    else (word, ' ' :: c :: rest)
  | split => split

end TradeDesk.Toml
