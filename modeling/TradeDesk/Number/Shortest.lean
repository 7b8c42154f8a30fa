import TradeDesk.Number.Binary64

/-!
# The shortest decimal that reads back

`Decimal.shortest` chooses, among the decimals that lie closer to a double than to any other, one
with the fewest digits, and of those the nearest to the double's exact value. Which way an exact tie
goes is for the layout to say. All arithmetic is on exact fractions.
-/

namespace TradeDesk

-- Powers of numbers are those of the core library.
attribute [local instance (high)] instPowNat

/-- A positive decimal `digits * 10^exponent`. -/
structure Decimal where
  digits : Nat
  exponent : Int
  deriving DecidableEq, Repr

/-- Which of two equally near decimals is written. -/
inductive Tie where
  /-- The one whose last digit is even. -/
  | even
  /-- The greater one. -/
  | up
  deriving DecidableEq, Repr

namespace Decimal

/-- Moves trailing zeros of the digits into the exponent; `fuel` bounds their number. -/
private def trim : Nat → Decimal → Decimal
  | 0, d => d
  | fuel + 1, d =>
    if d.digits ≠ 0 ∧ d.digits % 10 = 0 then trim fuel ⟨d.digits / 10, d.exponent + 1⟩ else d

/-- The same value with no trailing zero among its digits. -/
def normalize (d : Decimal) : Decimal := trim (d.digits.log2 + 1) d

/-- The decimal digits in reading order. -/
def text (d : Decimal) : List Char := Nat.toDigits 10 d.digits

/-- The exponent of the leading digit: `e` when the value is `d.ddd * 10^e`. -/
def leading (d : Decimal) : Int := d.exponent + (d.text.length : Int) - 1

/-- The set of reals that a double stands for, over one denominator: `low` to `high` around
`value`, ends included when `closed`. -/
structure Interval where
  low : Nat
  value : Nat
  high : Nat
  denominator : Nat
  closed : Bool

/-- The reals that round to a positive finite double. The neighbour below a power of two is at half
the distance of the neighbour above, except where the spacing is already the smallest. -/
def Interval.of (d : Dyadic) : Interval :=
  let m := d.significand
  let below := if m = 2 ^ Binary64.fractionBits ∧ -1074 < d.exponent then 1 else 2
  let (scale, den) := match d.exponent - 2 with
    | .ofNat n => (2 ^ n, 1)
    | .negSucc n => (1, 2 ^ (n + 1))
  ⟨(4 * m - below) * scale, 4 * m * scale, (4 * m + 2) * scale, den, decide (m % 2 = 0)⟩

/-- The interval in units of `10^g`. -/
def Interval.scale (i : Interval) (g : Int) : Interval :=
  match g with
  | .ofNat n => { i with denominator := i.denominator * 10 ^ n }
  | .negSucc n =>
    { i with low := i.low * 10 ^ (n + 1), value := i.value * 10 ^ (n + 1),
             high := i.high * 10 ^ (n + 1) }

/-- Whether the integer `d`, in the interval's unit, lies in the interval. -/
def Interval.holds (i : Interval) (d : Nat) : Bool :=
  let x := d * i.denominator
  if i.closed then decide (i.low ≤ x ∧ x ≤ i.high) else decide (i.low < x ∧ x < i.high)

/-- The integer of the interval nearest to its value, if one of the two integers next to the value
lies in the interval. -/
def Interval.nearest? (tie : Tie) (i : Interval) : Option Nat :=
  let below := i.value / i.denominator
  let rest := 2 * (i.value % i.denominator)
  let above := below + 1
  match i.holds below, i.holds above with
  | true, true =>
    if rest < i.denominator then some below
    else if i.denominator < rest then some above
    else some (if tie = .even ∧ below % 2 = 0 then below else above)
  | true, false => some below
  | false, true => some above
  | false, false => none

/-- The least power of ten above the value, as its exponent. -/
def Interval.magnitude (i : Interval) : Int :=
  let guess := ((i.value.log2 : Int) - (i.denominator.log2 : Int)) * 30103 / 100000
  let bounds (k : Int) : Bool :=
    let j := i.scale k
    decide (j.value < j.denominator)
  ([guess - 1, guess, guess + 1].find? bounds).getD (guess + 2)

/-- A decimal of the interval with as few digits as possible; seventeen are always enough. -/
def Interval.shortest (tie : Tie) (i : Interval) : Decimal :=
  let k := i.magnitude
  let hit := (List.range 17).findSome? fun n =>
    let g := k - (n + 1 : Nat)
    ((i.scale g).nearest? tie).map fun d => (⟨d, g⟩ : Decimal)
  (hit.getD ⟨0, 0⟩).normalize

/-- The shortest decimal of a finite double other than zero, its sign left out. -/
def shortest (tie : Tie) (d : Dyadic) : Decimal := (Interval.of d).shortest tie

end Decimal

end TradeDesk
