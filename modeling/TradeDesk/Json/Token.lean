import TradeDesk.Json.Value

/-!
# JSON tokens

The lexical grammar: brackets, separators, words, numbers and strings. A number is kept as written,
a `Numeral`, which is read as an integer or as a double; a string is kept as text only if its
surrogate escapes pair up and its bytes are UTF-8, since whether that matters depends on where the
string stands.
-/

namespace TradeDesk.Json

/-- A number as written: the digits before the point and after it, and the power of ten, if there is
one. -/
structure Numeral where
  negative : Bool
  whole : List Nat
  places : List Nat
  power : Option Int
  deriving DecidableEq, Repr

namespace Numeral

/-- The number that a run of digits writes. -/
def value (digits : List Nat) : Nat := digits.foldl (fun n d => 10 * n + d) 0

/-- The integer of a numeral without a fraction and a power of ten; `-0` is not taken for one. -/
def toInt? (n : Numeral) : Option Int :=
  if n.places.isEmpty && n.power.isNone then
    let i := value n.whole
    if n.negative then if i = 0 then none else some (-(i : Int)) else some (i : Int)
  else none

/-- Digits behind a number as long as it fits 64 bits, and how many digits are left over. -/
def fill (n : Nat) : List Nat → Nat × Nat
  | [] => (n, 0)
  | d :: rest => if 10 * n + d < UInt64.size then fill (10 * n + d) rest else (n, rest.length + 1)

/-- The digits that count for a double, as a number of 64 bits, and the power of ten it is taken
times. Digits that do not fit are zeros before the point and nothing after it. -/
def scaled (n : Numeral) : Nat × Int :=
  let (m, zeros) := fill 0 n.whole
  let (m, lost) := fill m n.places
  (m, (zeros : Int) - ((n.places.length - lost : Nat) : Int) + n.power.getD 0)

theorem fst_fill_lt {n : Nat} (h : n < UInt64.size) (digits : List Nat) :
    (fill n digits).1 < UInt64.size := by
  induction digits generalizing n with
  | nil => exact h
  | cons d rest ih =>
    unfold fill
    split
    · next fits => exact ih fits
    · exact h

/-- The digits that count fit 64 bits. -/
theorem fst_scaled_lt (n : Numeral) : n.scaled.1 < UInt64.size :=
  fst_fill_lt (fst_fill_lt (by decide) n.whole) n.places

/-- A power of ten that is a double, rounded. -/
def tenTo (e : Nat) : Float := Float.ofScientific 1 false e

/-- The double read from a numeral: the digits that count, times or divided by a power of ten, in two
steps if the divisor is beyond all doubles. Each step rounds, so it is not always the nearest double,
nor the one the text was written from. A numeral beyond the largest double has none. -/
def toFloat? (n : Numeral) : Option Float :=
  let (m, e) := n.scaled
  let x := Float.ofNat m
  let magnitude : Option Float :=
    match e with
    | .ofNat e =>
      if m = 0 then some 0.0
      else if 308 < e then none
      else
        let y := x * tenTo e
        if y.isInf then none else some y
    | .negSucc k =>
      let e := k + 1
      if e ≤ 308 then some (x / tenTo e)
      else if e ≤ 616 then some (x / tenTo 308 / tenTo (e - 308))
      else some 0.0
  magnitude.map fun y => if n.negative then -y else y

end Numeral

/-- A lexical unit of JSON text. -/
inductive Token where
  | arrayOpen
  | arrayClose
  | objectOpen
  | objectClose
  | comma
  | colon
  | null
  | bool (b : Bool)
  | number (n : Numeral)
  /-- A string, without text when it is not well-formed Unicode. -/
  | text (s : Option String)
  deriving DecidableEq

namespace Token

/-- Space, tab, line feed and carriage return may stand between tokens. -/
def isBlank (b : UInt8) : Bool := b = 0x20 || b = 0x09 || b = 0x0A || b = 0x0D

def isDigit (b : UInt8) : Bool := 0x30 ≤ b && b ≤ 0x39

/-- A nonempty run of digits and what follows it. -/
def digits? (bytes : List UInt8) : Option (List Nat × List UInt8) :=
  match bytes.takeWhile isDigit with
  | [] => none
  | run => some (run.map fun b => b.toNat - 0x30, bytes.dropWhile isDigit)

/-- The digits before a point: a zero stands alone. -/
def whole? (bytes : List UInt8) : Option (List Nat × List UInt8) :=
  match bytes with
  | 0x30 :: rest => if (rest.head?.map isDigit).getD false then none else some ([0], rest)
  | _ => digits? bytes

/-- The digits after a point, if there is one. -/
def fraction? (bytes : List UInt8) : Option (List Nat × List UInt8) :=
  match bytes with
  | 0x2E :: rest => digits? rest
  | _ => some ([], bytes)

/-- The power of ten, if there is one: `e` or `E`, a sign or none, digits. -/
def power? (bytes : List UInt8) : Option (Option Int × List UInt8) :=
  let unsigned (rest : List UInt8) (sign : Int) :=
    (digits? rest).map fun (run, rest) => (some (sign * (Numeral.value run : Int)), rest)
  let signed (rest : List UInt8) :=
    match rest with
    | 0x2B :: rest => unsigned rest 1
    | 0x2D :: rest => unsigned rest (-1)
    | _ => unsigned rest 1
  match bytes with
  | 0x65 :: rest => signed rest
  | 0x45 :: rest => signed rest
  | _ => some (none, bytes)

/-- A number and what follows it. -/
def numeral? (bytes : List UInt8) : Option (Numeral × List UInt8) := do
  let (negative, bytes) := match bytes with
    | 0x2D :: rest => (true, rest)
    | _ => (false, bytes)
  let (whole, bytes) ← whole? bytes
  let (places, bytes) ← fraction? bytes
  let (power, bytes) ← power? bytes
  some (⟨negative, whole, places, power⟩, bytes)

/-- The value of a hexadecimal digit. -/
def hexValue? (b : UInt8) : Option Nat :=
  if 0x30 ≤ b ∧ b ≤ 0x39 then some (b.toNat - 0x30)
  else if 0x41 ≤ b ∧ b ≤ 0x46 then some (b.toNat - 0x37)
  else if 0x61 ≤ b ∧ b ≤ 0x66 then some (b.toNat - 0x57)
  else none

/-- The UTF-16 unit that four hexadecimal digits write. -/
def hexUnit? (a b c d : UInt8) : Option Nat := do
  some (((← hexValue? a) * 16 + (← hexValue? b)) * 256 + (← hexValue? c) * 16 + (← hexValue? d))

/-- The byte that a short escape stands for. -/
def shortEscape? (b : UInt8) : Option UInt8 :=
  match b with
  | 0x22 => some 0x22
  | 0x5C => some 0x5C
  | 0x2F => some 0x2F
  | 0x62 => some 0x08
  | 0x66 => some 0x0C
  | 0x6E => some 0x0A
  | 0x72 => some 0x0D
  | 0x74 => some 0x09
  | _ => none

/-- The UTF-8 of a code point that is no surrogate. -/
def pointBytes (n : Nat) : List UInt8 := utf8 (String.singleton (Char.ofNat n))

/-- The bytes of a string up to its closing quote, and what follows the quote. The bytes are
missing when a surrogate escape has no partner. `high` is a high surrogate that was just read and
waits for its low half. -/
def textBytes? (high : Option Nat) : List UInt8 → Option (Option (List UInt8) × List UInt8)
  | [] => none
  | 0x22 :: rest => some (if high.isSome then none else some [], rest)
  | 0x5C :: 0x75 :: a :: b :: c :: d :: rest =>
    match hexUnit? a b c d with
    | none => none
    | some unit =>
      if 0xDC00 ≤ unit ∧ unit ≤ 0xDFFF then
        (textBytes? none rest).map fun (tail, rest) =>
          (high.bind fun h =>
            tail.map (pointBytes (0x10000 + (h - 0xD800) * 1024 + (unit - 0xDC00)) ++ ·), rest)
      else if 0xD800 ≤ unit ∧ unit ≤ 0xDBFF then
        (textBytes? (some unit) rest).map fun (tail, rest) =>
          (if high.isSome then none else tail, rest)
      else
        (textBytes? none rest).map fun (tail, rest) =>
          (if high.isSome then none else tail.map (pointBytes unit ++ ·), rest)
  | 0x5C :: e :: rest =>
    match shortEscape? e with
    | none => none
    | some b =>
      (textBytes? none rest).map fun (tail, rest) =>
        (if high.isSome then none else tail.map (b :: ·), rest)
  | b :: rest =>
    if b < 0x20 ∨ b = 0x5C then none
    else
      (textBytes? none rest).map fun (tail, rest) =>
        (if high.isSome then none else tail.map (b :: ·), rest)

/-- The token at the start of nonblank text, and what follows it. -/
def next? (bytes : List UInt8) : Option (Token × List UInt8) :=
  match bytes with
  | 0x5B :: rest => some (.arrayOpen, rest)
  | 0x5D :: rest => some (.arrayClose, rest)
  | 0x7B :: rest => some (.objectOpen, rest)
  | 0x7D :: rest => some (.objectClose, rest)
  | 0x2C :: rest => some (.comma, rest)
  | 0x3A :: rest => some (.colon, rest)
  | 0x6E :: 0x75 :: 0x6C :: 0x6C :: rest => some (.null, rest)
  | 0x74 :: 0x72 :: 0x75 :: 0x65 :: rest => some (.bool true, rest)
  | 0x66 :: 0x61 :: 0x6C :: 0x73 :: 0x65 :: rest => some (.bool false, rest)
  | 0x22 :: rest => (textBytes? none rest).map fun (tail, rest) => (.text (tail.bind ofUtf8?), rest)
  | _ => (numeral? bytes).map fun (n, rest) => (.number n, rest)

/-- The tokens of text with at most `fuel` of them, each of which takes at least one byte. -/
def lexWithin : Nat → List UInt8 → Option (List Token)
  | 0, bytes => if bytes.all isBlank then some [] else none
  | fuel + 1, bytes =>
    match bytes.dropWhile isBlank with
    | [] => some []
    | bytes => do
      let (token, rest) ← next? bytes
      (lexWithin fuel rest).map (token :: ·)

/-- The tokens of a text. -/
def lex (bytes : List UInt8) : Option (List Token) := lexWithin bytes.length bytes

end Token

end TradeDesk.Json
