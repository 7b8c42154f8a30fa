import TradeDesk.Json.Token

/-!
# Numbers in settings

The numbers that a piece of text stands for: an integer is a run of digits with an optional sign, a
real number may have a fraction and an exponent, and it may be infinite or no number at all.

Follows the readings of text that `Settings::load` of `config` asks for, for variables of the
environment.
-/

namespace TradeDesk

namespace Scalar

/-- The value of a digit; letters of either case count from ten. -/
def digit (c : Char) : Nat :=
  if c.toNat < 58 then c.toNat - 48 else if c.toNat < 97 then c.toNat - 55 else c.toNat - 87

/-- The number that a run of digits writes in a base. -/
def natural (base : Nat) (digits : List Char) : Nat :=
  digits.foldl (fun n c => base * n + digit c) 0

/-- A sign in front of text; true is negative. -/
def sign : List Char → Bool × List Char
  | '-' :: rest => (true, rest)
  | '+' :: rest => (false, rest)
  | s => (false, s)

/-- A nonempty run of digits with an optional sign. -/
def integer? (s : List Char) : Option Int :=
  let (negative, digits) := sign s
  if digits.isEmpty || !digits.all Char.isDigit then none
  else some (if negative then -(natural 10 digits : Int) else (natural 10 digits : Int))

/-- The nearest double to `mantissa * 10^exponent`; beyond the largest one it is infinite. Exponents
far outside the range of doubles are settled before a power of ten is formed. -/
def nearest (mantissa : Nat) (exponent : Int) : Float :=
  let leading := exponent + (Nat.toDigits 10 mantissa).length
  if mantissa = 0 ∨ leading < -330 then 0.0
  else if 310 < leading then 1.0 / 0.0
  else Float.ofScientific mantissa (decide (exponent < 0)) exponent.natAbs

/-- The exponent of a real number, zero when nothing is left to read. -/
def exponent? : List Char → Option Int
  | [] => some 0
  | c :: rest => if c = 'e' || c = 'E' then integer? rest else none

/-- A real number without its sign: digits on one side of the point at least. -/
def magnitude? (s : List Char) : Option Float := do
  let (whole, rest) := s.span Char.isDigit
  let (places, rest) := match rest with
    | '.' :: rest => rest.span Char.isDigit
    | _ => ([], rest)
  if whole.isEmpty && places.isEmpty then none
  else
    let exponent ← exponent? rest
    some (nearest (natural 10 (whole ++ places)) (exponent - places.length))

/-- A real number. -/
def real? (s : List Char) : Option Float := do
  let (negative, rest) := sign s
  let word := String.ofList (rest.map Char.toLower)
  let x ←
    if word = "inf" || word = "infinity" then some (1.0 / 0.0)
    else if word = "nan" then some (0.0 / 0.0)
    else magnitude? rest
  some (if negative then -x else x)

end Scalar

end TradeDesk
