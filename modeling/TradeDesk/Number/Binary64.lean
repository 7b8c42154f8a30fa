/-!
# Exact readings of doubles

A finite double is an integer times a power of two. Whatever needs its value exactly (its shortest
decimal, its integer part, a distance rounded once) reads it through `Dyadic.ofFloat?`; whatever
makes a double out of an exact fraction goes through `ofFraction`, which rounds to the nearest
double and takes ties to the even neighbour.
-/

namespace TradeDesk

-- Powers of numbers are those of the core library.
attribute [local instance (high)] instPowNat

namespace Binary64

/-- How many bits of a double hold its fraction. -/
abbrev fractionBits : Nat := 52

/-- How many bits of a double hold its exponent. -/
abbrev exponentBits : Nat := 11

/-- The place of the bit that holds a double's sign. -/
abbrev signPlace : Nat := 63

end Binary64

/-- The exact value `(-1)^negative * significand * 2^exponent` of a finite double. -/
structure Dyadic where
  negative : Bool
  significand : Nat
  exponent : Int
  deriving DecidableEq, Repr

namespace Dyadic

open Binary64 (fractionBits exponentBits signPlace)

/-- Reads a double field by field; a double that is not finite has no exact value. -/
def ofFloat? (x : Float) : Option Dyadic :=
  let bits := x.toBits.toNat
  let biased := bits / 2 ^ fractionBits % 2 ^ exponentBits
  let fraction := bits % 2 ^ fractionBits
  let negative := decide (2 ^ signPlace ≤ bits)
  if biased = 2047 then none
  else if biased = 0 then some ⟨negative, fraction, -1074⟩
  else some ⟨negative, (2 ^ fractionBits + fraction : Nat), Int.ofNat biased - 1075⟩

/-- The magnitude as a fraction, numerator first. -/
def fraction (d : Dyadic) : Nat × Nat :=
  match d.exponent with
  | .ofNat n => (d.significand * 2 ^ n, 1)
  | .negSucc n => (d.significand, 2 ^ (n + 1))

/-- The greatest integer that is not above the value. -/
def floor (d : Dyadic) : Int :=
  let (num, den) := d.fraction
  if d.negative then -(((num + (den - 1)) / den : Nat) : Int) else ((num / den : Nat) : Int)

/-- The nearest integer; a value half-way between two goes to the one further from zero. -/
def round (d : Dyadic) : Int :=
  let (num, den) := d.fraction
  let nearest : Nat := (2 * num + den) / (2 * den)
  if d.negative then -(nearest : Int) else (nearest : Int)

end Dyadic

namespace Binary64

/-- The quotient rounded to the nearest integer; a tie goes to the even one. -/
def roundQuotient (num den : Nat) : Nat :=
  let q := num / den
  let twice := 2 * (num % den)
  if twice < den then q
  else if den < twice then q + 1
  else if q % 2 = 0 then q else q + 1

/-- The bits of the double nearest to `num / den * 2^k`, for a positive fraction whose quotient,
rounded, has at most 53 binary digits at the exponent `e`; beyond the largest double, infinity. -/
private def assemble (num den : Nat) (e : Int) : Nat :=
  let scaled := match e with
    | .ofNat n => (num, den * 2 ^ n)
    | .negSucc n => (num * 2 ^ (n + 1), den)
  min (roundQuotient scaled.1 scaled.2 + (e + 1074).toNat * 2 ^ fractionBits)
    (2047 * 2 ^ fractionBits)

/-- The double nearest to `num / den`, ties to even, with the sign given apart. -/
def ofFraction (negative : Bool) (num den : Nat) : Float :=
  let magnitude :=
    if num = 0 ∨ den = 0 then 0
    else
      let guess : Int := (num.log2 : Int) - (den.log2 : Int) - fractionBits
      -- The quotient at `guess` lies strictly between `2^51` and `2^53`.
      let reaches : Bool := match guess with
        | .ofNat n => decide (den * 2 ^ n * 2 ^ fractionBits ≤ num)
        | .negSucc n => decide (den * 2 ^ fractionBits ≤ num * 2 ^ (n + 1))
      assemble num den (max (-1074) (if reaches then guess else guess - 1))
  Float.ofBits (UInt64.ofNat (magnitude + if negative then 2 ^ signPlace else 0))

/-- An integer held to the range of signed 64-bit words. -/
def saturate (n : Int) : Int64 :=
  Int64.ofInt (max Int64.minValue.toInt (min Int64.maxValue.toInt n))

/-- An integer read of a double: `exact` of its value held to the signed 64-bit range, the nearer
end of that range for an infinity, and zero for a NaN. -/
private def toWord (exact : Dyadic → Int) (x : Float) : Int64 :=
  match Dyadic.ofFloat? x with
  | some d => saturate (exact d)
  | none =>
    if x.isNaN then 0
    else if x < 0 then Int64.minValue
    else Int64.maxValue

/-- The integer part towards negative infinity, as a signed word. -/
def floorWord (x : Float) : Int64 := toWord Dyadic.floor x

/-- The nearest integer, halves away from zero, as a signed word. -/
def roundWord (x : Float) : Int64 := toWord Dyadic.round x

/-- The length of the vector `(x, y)`, rounded once from its exact value. An infinite component
makes it infinite whatever the other is; otherwise a NaN component makes it a NaN. -/
def length (x y : Float) : Float :=
  if x.isInf || y.isInf then Float.ofBits 0x7FF0000000000000
  else
    match Dyadic.ofFloat? x, Dyadic.ofFloat? y with
    | some a, some b =>
      -- Both components over one power of two, so that the sum of squares is an exact integer.
      let low := min a.exponent b.exponent
      let m := a.significand * 2 ^ (a.exponent - low).toNat
      let n := b.significand * 2 ^ (b.exponent - low).toNat
      let square := m * m + n * n
      -- The root to at least 64 further binary digits, with a last digit that records a remainder.
      let shift := 64
      let wide := square * 2 ^ (2 * shift)
      let root := wide.sqrt
      let sticky := 2 * root + if root * root = wide then 0 else 1
      match low - (shift + 1 : Nat) with
      | .ofNat k => ofFraction false (sticky * 2 ^ k) 1
      | .negSucc k => ofFraction false sticky (2 ^ (k + 1))
    | _, _ => x + y

end Binary64

end TradeDesk
