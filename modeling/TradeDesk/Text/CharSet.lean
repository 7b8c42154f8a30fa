/-!
# Sets of characters
-/

namespace TradeDesk

/-- A set of characters: ranges of code points, first and last, in ascending order. -/
structure CharSet where
  ranges : List (Nat × Nat)

namespace CharSet

/-- Whether a character is in a set. The first range that does not end before it decides. -/
def contains (s : CharSet) (c : Char) : Bool :=
  match s.ranges.find? fun range => c.toNat ≤ range.2 with
  | some range => range.1 ≤ c.toNat
  | none => false

end CharSet

end TradeDesk
