import TradeDesk.Text.Unseen

/-!
# Quoted text

Names as diagnostics show them: between quotes, with everything that could not be seen or would
change its neighbour written as an escape. A list of names is shown between brackets.
-/

namespace TradeDesk

namespace Quoted

/-- One character between quotes. -/
def character (c : Char) : List Char :=
  if c = '"' then ['\\', '"']
  else if c = '\\' then ['\\', '\\']
  else if c = '\t' then ['\\', 't']
  else if c = '\n' then ['\\', 'n']
  else if c = '\r' then ['\\', 'r']
  else if c.toNat = 0 then ['\\', '0']
  else if !unseen.contains c then [c]
  else ['\\', 'u', '\x7b'] ++ Nat.toDigits 16 c.toNat ++ ['\x7d']

/-- Text between quotes. -/
def text (s : String) : String := String.ofList ('"' :: s.toList.flatMap character ++ ['"'])

/-- Names between brackets. -/
def list (names : List String) : String := "[" ++ String.intercalate ", " (names.map text) ++ "]"

end Quoted

end TradeDesk
